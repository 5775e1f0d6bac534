import LoadTest.Outcome.Classify
import LoadTest.Proofs.Format.Record

/-!
# LoadTest.Proofs.Outcome.Classification

The table of outcomes, as a relation between exchanges and categories. **Each exchange has the outcome of
its row and no other** (`classify_iff_row`), for bodies of any bytes. A success is told from other bodies by
one value, and there are two ways to write it down: as the one member of its name in an object, whatever
the other members are, and also as the one item of an array, which no table of the scenarios mentions.
-/

namespace LoadTest

open Format Json

/-! ### The body of a success -/

namespace Scenario

/-- The outcome of an exchange that did what it was for. -/
def success : Scenario → Outcome.Category
  | .couponIssue => .queued
  | .popularProducts _ => .found

/-- The name of the value by which the target reports a success. -/
def successField : Scenario → String
  | .couponIssue => "status"
  | .popularProducts _ => "id"

/-- The value by which the target reports a success. The integer is written as its digits, without a sign,
a point or an exponent. -/
def IsSuccess (scenario : Scenario) (parameters : Parameters) (value : Json) : Prop :=
  match scenario with
  | .couponIssue => value = ofString "QUEUED"
  | .popularProducts _ => ∃ digits, value = .number ⟨false, digits, [], none⟩
      ∧ Token.digitsValue digits = parameters.target.toNat

end Scenario

namespace Outcome

variable {scenario : Scenario} {parameters : Parameters} {body : List UInt8}

/-- A body that is an object with exactly one member of the name, which has the value of a success. -/
def Reports (scenario : Scenario) (parameters : Parameters) (body : List UInt8) : Prop :=
  ∃ json value, Json.ofBytes? body = some json ∧ HasOnly scenario.successField value json
    ∧ scenario.IsSuccess parameters value

/-- A body that is an array of the value of a success alone. -/
def ReportsBare (scenario : Scenario) (parameters : Parameters) (body : List UInt8) : Prop :=
  ∃ value, Json.ofBytes? body = some (.array [value]) ∧ scenario.IsSuccess parameters value

/-- A field that has to have some value is read off an object or an array. -/
theorem bind_required?_iff {α : Type} {name : String} {read : Json → Option α} {a : α} :
    ((Json.ofBytes? body).bind fun json =>
        (Record.ofSource? [⟨name, []⟩] json).bind (·.required? name read)) = some a
      ↔ (∃ json value, Json.ofBytes? body = some json ∧ HasOnly name value json ∧ read value = some a)
        ∨ ∃ value, Json.ofBytes? body = some (.array [value]) ∧ read value = some a := by
  rw [Option.bind_eq_some_iff]
  simp only [required?_one_iff]
  constructor
  · rintro ⟨json, hjson, value, honly | rfl, hread⟩
    · exact .inl ⟨json, value, hjson, honly, hread⟩
    · exact .inr ⟨value, hjson, hread⟩
  · rintro (⟨json, value, hjson, honly, hread⟩ | ⟨value, hjson, hread⟩)
    · exact ⟨json, hjson, value, .inl honly, hread⟩
    · exact ⟨_, hjson, value, .inr rfl, hread⟩

theorem issueStatus?_iff : issueStatus? body = some "QUEUED"
    ↔ Reports .couponIssue parameters body ∨ ReportsBare .couponIssue parameters body := by
  refine bind_required?_iff.trans ?_
  simp only [text?_eq_some_iff]
  rfl

theorem productId?_iff {threshold : Duration} : productId? body = some parameters.target
    ↔ Reports (.popularProducts threshold) parameters body
      ∨ ReportsBare (.popularProducts threshold) parameters body := by
  refine bind_required?_iff.trans ?_
  simp only [word?_eq_some_iff]
  rfl

/-! ### The table -/

/-- **The table of outcomes,** given which bodies report a success. -/
inductive Row (Good : List UInt8 → Prop) : Scenario → Exchange → Category → Prop
  | lost {scenario : Scenario} (error : TransportError) : Row Good scenario (.error error) .transportError
  | success {scenario : Scenario} {response : Response} (status : response.status = 200)
      (good : Good response.body) : Row Good scenario (.ok response) scenario.success
  | malformed {scenario : Scenario} {response : Response} (status : response.status = 200)
      (bad : ¬ Good response.body) : Row Good scenario (.ok response) .parseError
  | duplicate {response : Response} (status : response.status = 409) :
      Row Good .couponIssue (.ok response) .duplicate
  | soldOut {response : Response} (status : response.status = 410) :
      Row Good .couponIssue (.ok response) .soldOut
  | otherCoupon {response : Response} (not200 : response.status ≠ 200) (not409 : response.status ≠ 409)
      (not410 : response.status ≠ 410) : Row Good .couponIssue (.ok response) .unexpectedStatus
  | otherProduct {threshold : Duration} {response : Response} (not200 : response.status ≠ 200) :
      Row Good (.popularProducts threshold) (.ok response) .unexpectedStatus

/-- Only whether the body at hand reports a success matters. -/
theorem Row.congr {Good Good' : List UInt8 → Prop} {exchange : Exchange} {category : Category}
    (same : ∀ response, exchange = .ok response → (Good response.body ↔ Good' response.body))
    (row : Row Good scenario exchange category) : Row Good' scenario exchange category := by
  cases row with
  | lost error => exact .lost error
  | success status good => exact .success status ((same _ rfl).mp good)
  | malformed status bad => exact .malformed status (mt (same _ rfl).mpr bad)
  | duplicate status => exact .duplicate status
  | soldOut status => exact .soldOut status
  | otherCoupon not200 not409 not410 => exact .otherCoupon not200 not409 not410
  | otherProduct not200 => exact .otherProduct not200

/-- **An exchange has the outcome of its row,** where both ways to report a success count. -/
theorem classify_iff_row (scenario : Scenario) (exchange : Exchange) (parameters : Parameters)
    (category : Category) : classify scenario exchange parameters = category
      ↔ Row (fun body => Reports scenario parameters body ∨ ReportsBare scenario parameters body)
        scenario exchange category := by
  constructor
  · rintro rfl
    cases exchange with
    | error error => exact .lost error
    | ok response =>
        cases scenario with
        | couponIssue =>
            simp only [classify]
            split
            · next status =>
              split
              · next good => exact .success status (issueStatus?_iff.mp good)
              · next bad => exact .malformed status (mt issueStatus?_iff.mpr bad)
            · next status => exact .duplicate status
            · next status => exact .soldOut status
            · next not200 not409 not410 => exact .otherCoupon not200 not409 not410
        | popularProducts threshold =>
            simp only [classify]
            split
            · next status =>
              split
              · next good => exact .success status (productId?_iff.mp good)
              · next bad => exact .malformed status (mt productId?_iff.mpr bad)
            · next not200 => exact .otherProduct not200
  · intro row
    cases row with
    | lost error => rfl
    | success status good =>
        cases scenario with
        | couponIssue => simp [classify, status, issueStatus?_iff.mpr good, Scenario.success]
        | popularProducts threshold => simp [classify, status, productId?_iff.mpr good, Scenario.success]
    | malformed status bad =>
        cases scenario with
        | couponIssue => simp [classify, status, mt issueStatus?_iff.mp bad]
        | popularProducts threshold => simp [classify, status, mt productId?_iff.mp bad]
    | duplicate status => simp [classify, status]
    | soldOut status => simp [classify, status]
    | otherCoupon not200 not409 not410 => simp [classify]
    | otherProduct not200 => simp [classify]

/-- **The table is exact,** in both directions and for every category. The body of a success is an object that
reports it or an array that does so barely; where the body is no such array, the table is the one of the
objects alone. -/
theorem classified_by_table (scenario : Scenario) (exchange : Exchange) (parameters : Parameters)
    (category : Category) :
    (classify scenario exchange parameters = category
        ↔ Row (fun body => Reports scenario parameters body ∨ ReportsBare scenario parameters body)
          scenario exchange category)
      ∧ ((∀ response, exchange = .ok response → ¬ ReportsBare scenario parameters response.body) →
        (classify scenario exchange parameters = category
          ↔ Row (Reports scenario parameters) scenario exchange category)) := by
  refine ⟨classify_iff_row scenario exchange parameters category, fun objects => ?_⟩
  have same (response : Response) (hexchange : exchange = .ok response) :
      Reports scenario parameters response.body ∨ ReportsBare scenario parameters response.body
        ↔ Reports scenario parameters response.body :=
    or_iff_left (objects response hexchange)
  rw [classify_iff_row]
  exact ⟨Row.congr same, Row.congr fun response hexchange => (same response hexchange).symm⟩

/-! ### Two bodies -/

/-- A response with a JSON value for its body. -/
def answered (json : Json) : Response := ⟨200, .ofMillis 10, json.compact.toUTF8.toList⟩

theorem ofBytes?_answered {json : Json} (written : json.Written) :
    Json.ofBytes? (answered json).body = some json :=
  ofText?_textWith written ⟨false, 0⟩

/-- The record of a product. -/
def productRecord : Json := ofMembers [("id", ofWord 5), ("name", ofString "x")]

theorem written_productRecord : productRecord.Written :=
  written_ofMembers (by simp [written_word, Written, ofString])

/-- A product that was asked for is found in its record, which has other members too. -/
theorem product_found :
    classify (.popularProducts .zero) (.ok (answered productRecord)) ⟨some 1, 5⟩ = .found := by
  have hbytes := ofBytes?_answered written_productRecord
  refine ((classified_by_table _ _ _ _).2 ?_).mpr (.success rfl ⟨productRecord, ofWord 5, hbytes, ?_, ?_⟩)
  · rintro response hresponse ⟨value, hvalue, -⟩
    cases hresponse
    cases hbytes.symm.trans hvalue
  · exact ⟨_, rfl, by simp [Scenario.successField]⟩
  · exact word?_eq_some_iff.mp (word?_ofWord 5)

/-- **An array with a status in it passes for the record of a coupon,** though it has no members at all: by the
table of objects, the body would be malformed. -/
theorem bare_status_queued : ∃ exchange parameters,
    classify .couponIssue exchange parameters = .queued
      ∧ Row (Reports .couponIssue parameters) .couponIssue exchange .parseError := by
  have hbytes : Json.ofBytes? (answered (.array [ofString "QUEUED"])).body
      = some (.array [ofString "QUEUED"]) :=
    ofBytes?_answered (itemsWritten_iff.mpr (by simp [Written, ofString]))
  refine ⟨.ok (answered (.array [ofString "QUEUED"])), ⟨some 1, 1⟩, ?_, .malformed rfl ?_⟩
  · exact (classify_iff_row _ _ _ _).mpr (.success rfl (.inr ⟨_, hbytes, rfl⟩))
  · rintro ⟨json, value, hjson, ⟨members, rfl, -⟩, -⟩
    cases hbytes.symm.trans hjson

end Outcome

end LoadTest
