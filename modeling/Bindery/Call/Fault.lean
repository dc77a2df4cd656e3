import Bindery.Post.Fault

/-!
# Faults of calls
-/
namespace Bindery.Call

/-- Why a call gave no payload. -/
inductive Fault where
  | missingParameter (name : String)
  | encode (field : String) (why : Json.Fault)
  | post (endpoint : String) (why : Post.Fault)
  /-- The service refused the call and said why. -/
  | remote (message : String)
  | missingPayload (endpoint field : String)
  deriving Repr

namespace Fault

def message : Fault → String
  | .missingParameter name => s!"missing required parameter {name}"
  | .encode field why => s!"failed to encode field {field}: {why.message}"
  | .post endpoint why => s!"failed to post to {endpoint}: {why.message}"
  | .remote message => message
  | .missingPayload endpoint field => s!"response from {endpoint} is missing its {field} payload"

/-- What the service said. -/
def remote? : Fault → Option String
  | .remote message => some message
  | _ => none

/-- Whether the form could not be filled. -/
def isLocal : Fault → Bool
  | .missingParameter _ => true
  | .encode .. => true
  | _ => false

/-- The messages of what caused the fault, nearest first. A form is encoded in two layers, which
have one message. -/
def causes : Fault → List String
  | .encode _ why => [why.message, why.message]
  | .post _ why => why.trace
  | _ => []

end Fault

end Bindery.Call
