import LoadTest.Exchange
import LoadTest.Format.Json
import LoadTest.Scenario.Basic

/-!
# LoadTest.Probe

Requests around a run that are no part of its load: a health check that has to succeed before anything
starts, connections opened in advance, and the stock of the target before and after. **Each probe is a
request and a reading of what comes back.**
-/

namespace LoadTest

open Format

/-- Why a probe found nothing. -/
inductive ProbeError where
  | healthUnreachable (url : String)
  | healthStatus (url : String) (status : Nat)
  | inventoryUnreachable (url : String)
  | inventoryStatus (url : String) (status : Nat)
  | inventoryNotJson (url : String)
  | inventoryField (url field : String)
  deriving DecidableEq

/-- The error in words. -/
def ProbeError.message : ProbeError → String
  | .healthUnreachable url => "health check " ++ url ++ " failed"
  | .healthStatus url status =>
      "health check " ++ url ++ " returned status " ++ toString status ++ ", aborting before load"
  | .inventoryUnreachable url => "inventory probe " ++ url ++ " failed"
  | .inventoryStatus url status => "inventory probe " ++ url ++ " returned status " ++ toString status
  | .inventoryNotJson url => "inventory probe " ++ url ++ " returned invalid JSON"
  | .inventoryField url field => "inventory probe " ++ url ++ " has no integer " ++ "`" ++ field ++ "`"

namespace Probe

/-- Whether an address names a web scheme of its own. -/
def isAbsolute (url : String) : Bool :=
  "http://".toList.isPrefixOf url.toList || "https://".toList.isPrefixOf url.toList

/-- An address under a base; there is one slash between the two. -/
def joinUrl (baseUrl path : String) : String :=
  if isAbsolute path then path
  else Scenario.trimBase baseUrl ++ "/" ++ String.ofList (path.toList.dropWhile (· = '/'))

/-- How many connections are opened in advance. -/
def warmupConnections : Nat := 10

/-- The request of a probe. -/
def request (url : String) : Request := { method := .get, url }

/-- The request that opens a connection. -/
def warmup (url : String) : Request := { method := .head, url }

/-- Health is a response with status 200. -/
def readHealth (url : String) : Exchange → Except ProbeError Unit
  | .error _ => .error (.healthUnreachable url)
  | .ok response => if response.status = 200 then .ok () else .error (.healthStatus url response.status)

/-- The last member of a name in an object. -/
def member? (name : String) : Content → Option Content
  | .map members => (members.reverse.find? fun member =>
      match member.1 with
      | .text key => key == name
      | _ => false).map (·.2)
  | _ => none

/-- A 64-bit integer. -/
def stock? : Content → Option Int
  | .integer i => if -signedLimit ≤ i ∧ i < signedLimit then some i else none
  | _ => none

/-- The stock is an integer member of the object in the body of a response with status 200. -/
def readInventory (url field : String) : Exchange → Except ProbeError Int
  | .error _ => .error (.inventoryUnreachable url)
  | .ok response =>
      if response.status ≠ 200 then .error (.inventoryStatus url response.status)
      else
        match (Json.ofBytes? response.body).bind (content? 0) with
        | none => .error (.inventoryNotJson url)
        | some content =>
            match (member? field content).bind stock? with
            | some quantity => .ok quantity
            | none => .error (.inventoryField url field)

end Probe

end LoadTest
