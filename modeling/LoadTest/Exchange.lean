import LoadTest.Duration.Basic
import LoadTest.Number.Numeral

/-!
# LoadTest.Exchange

Requests to the target and what becomes of them. **Any status is a response;** an exchange fails only
if no whole response arrives.
-/

namespace LoadTest

/-- The methods that requests use. -/
inductive Method where
  | get
  | post
  | head
  deriving DecidableEq

/-- The method as it is sent. -/
def Method.name : Method → String
  | .get => "GET"
  | .post => "POST"
  | .head => "HEAD"

/-- A request without a body. -/
structure Request where
  method : Method
  url : String
  headers : List (String × String) := []
  deriving DecidableEq

namespace Request

/-- The request with one more header, behind the others. -/
def withHeader (request : Request) (name value : String) : Request :=
  { request with headers := request.headers ++ [(name, value)] }

/-- Header names are compared without regard to the case of ASCII letters. -/
def sameHeader (a b : String) : Bool :=
  a.toList.map Numeral.lowerAscii == b.toList.map Numeral.lowerAscii

/-- The value of the first header of a name. -/
def header? (request : Request) (name : String) : Option String :=
  (request.headers.find? fun header => sameHeader header.1 name).map (·.2)

end Request

/-- A response, with the time from sending the request to the end of its body. -/
structure Response where
  status : Nat
  latency : Duration
  body : List UInt8
  deriving DecidableEq

/-- Why no response arrived. -/
inductive TransportError where
  | invalidRequest (reason : String)
  | timeout (limit : Duration)
  | connection (reason : String)
  | body (reason : String)
  deriving DecidableEq

/-- The error in words. -/
def TransportError.message : TransportError → String
  | .invalidRequest reason => "invalid request: " ++ reason
  | .timeout limit => "request timed out after " ++ limit.text
  | .connection reason => "connection failed: " ++ reason
  | .body reason => "failed to read response body: " ++ reason

/-- What became of a request. -/
abbrev Exchange := Except TransportError Response

instance : DecidableEq Exchange
  | .ok a, .ok b => decidable_of_iff (a = b) (by simp)
  | .error a, .error b => decidable_of_iff (a = b) (by simp)
  | .ok _, .error _ => .isFalse (by simp)
  | .error _, .ok _ => .isFalse (by simp)

namespace Exchange

/-- The latency of a response. -/
def latency? : Exchange → Option Duration
  | .ok response => some response.latency
  | .error _ => none

/-- Whether the request failed: there was no response, or its status is that of an error. -/
def failed : Exchange → Bool
  | .ok response => decide (400 ≤ response.status)
  | .error _ => true

end Exchange

end LoadTest
