import LoadTest.Format.Json
import LoadTest.Scenario.Basic

/-!
# LoadTest.Outcome.Classify

Which outcome an exchange had. **The status decides, and for status 200 the body has to be the record
that the scenario expects:** a coupon's `status`, or the `id` of the product that was asked for.
-/

namespace LoadTest.Outcome

open Format

/-- The `status` of a coupon's record. -/
def issueStatus? (body : List UInt8) : Option String := do
  let record ← Record.ofSource? [⟨"status", []⟩] (← Json.ofBytes? body)
  record.required? "status" (text? (σ := Json))

/-- The `id` of a product's record. -/
def productId? (body : List UInt8) : Option UInt64 := do
  let record ← Record.ofSource? [⟨"id", []⟩] (← Json.ofBytes? body)
  record.required? "id" (word? (σ := Json))

/-- The outcome of an exchange. -/
def classify (scenario : Scenario) (exchange : Exchange) (parameters : Parameters) : Category :=
  match exchange, scenario with
  | .error _, _ => .transportError
  | .ok response, .couponIssue =>
      match response.status with
      | 200 => if issueStatus? response.body = some "QUEUED" then .queued else .parseError
      | 409 => .duplicate
      | 410 => .soldOut
      | _ => .unexpectedStatus
  | .ok response, .popularProducts _ =>
      match response.status with
      | 200 => if productId? response.body = some parameters.target then .found else .parseError
      | _ => .unexpectedStatus

end LoadTest.Outcome
