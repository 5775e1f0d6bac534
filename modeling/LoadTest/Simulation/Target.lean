import LoadTest.Exchange

/-!
# LoadTest.Simulation.Target

A target whose answers are known in advance. **What it answers hangs only on the request and on how many
requests of the same key came before,** so no answer depends on how requests of different users
interleave.
-/

namespace LoadTest

/-- The key under which a request is counted: its method and address, and the user it names. -/
def Request.key (request : Request) : String :=
  request.method.name ++ " " ++ request.url ++
    (match request.header? "userId" with
      | some user => " userId=" ++ user
      | none => "")

/-- The method and address of a request. -/
def Request.route (request : Request) : String := request.method.name ++ " " ++ request.url

namespace Simulation

/-- What becomes of a request, and how long after it was sent. -/
structure Reply where
  delay : Duration
  exchange : Exchange
  deriving DecidableEq

/-- A reply that takes longer than the limit of the request comes as a timeout, after the limit. -/
def Reply.within (limit : Duration) (reply : Reply) : Reply :=
  if limit < reply.delay then ⟨limit, .error (.timeout limit)⟩ else reply

/-- How a target answers: the reply to a request, given how many requests of its key came before. -/
abbrev Target := Request → Nat → Reply

namespace Target

/-- What is found where there is nothing. -/
def notFound : Reply := ⟨.ofMillis 1, .ok ⟨404, .ofMillis 1, []⟩⟩

/-- The target that answers on some routes, over and over in the order of a list, and finds nothing
elsewhere. -/
def ofRoutes (routes : List (String × List Reply)) : Target := fun request count =>
  let replies := (routes.lookup request.route).getD []
  (replies[count % replies.length]?).getD notFound

/-- The target that nobody can connect to. -/
def unreachable : Target := fun _ _ => ⟨.zero, .error (.connection "unreachable")⟩

end Target

end Simulation

end LoadTest
