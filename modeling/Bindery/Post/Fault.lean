import Bindery.Json.Fault
import Bindery.Url.Fault

/-!
# Faults of posting
-/
namespace Bindery.Post

/-- Why a form was not posted or its reply not taken. -/
inductive Fault where
  /-- No request could be made, or no whole reply came back. -/
  | request
  | url (endpoint : String) (why : Url.Fault)
  | status (code : Nat) (body : String)
  | reply (why : Json.Fault)
  | cancelled
  | deadline
  deriving Repr

def Fault.message : Fault → String
  | .request => "HTTP request failed"
  | .url endpoint why => s!"invalid URL for {endpoint}: {why.message}"
  | .status code body => s!"HTTP {code}: {body}"
  | .reply why => s!"failed to decode response: {why.message}"
  | .cancelled => "request cancelled"
  | .deadline => "deadline exceeded"

/-- The messages of the fault and of what caused it. -/
def Fault.trace (f : Fault) : List String :=
  f.message :: match f with
    | .url _ why => [why.message]
    | .reply why => [why.message]
    | _ => []

end Bindery.Post
