import Bindery.Post.Fault

/-!
# Races

Work is raced against the end of its context. Each time the race is looked at, cancellation counts
before the deadline and the deadline before the result.
-/
namespace Bindery

open Post (Fault)

/-- What is there when a race is looked at. -/
structure Poll (α : Type) where
  cancelled : Bool := false
  expired : Bool := false
  result : Option (Except Fault α) := none

namespace Poll

/-- How the race ends here, if it does. -/
def outcome? (p : Poll α) : Option (Except Fault α) :=
  if p.cancelled then some (.error .cancelled)
  else if p.expired then some (.error .deadline)
  else p.result

/-- Whether the work itself is looked at. -/
def reachesWork (p : Poll α) : Bool := !p.cancelled && !p.expired

end Poll

/-- The outcome of a race that is looked at again and again; none while it goes on. -/
def race? (polls : List (Poll α)) : Option (Except Fault α) := polls.findSome? Poll.outcome?

end Bindery
