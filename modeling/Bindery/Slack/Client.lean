import Bindery.Call.Execution
import Bindery.Settings
import Bindery.Slack.Catalog
import Bindery.Slack.Objects

/-!
# A client of the Slack Web API
-/
namespace Bindery.Slack

open Json (Schema)

def apiUrl : String := "https://slack.com/api/"

def userAgent : String := "methodgen-slack/0.1.0"

/-- The schema of a text or an object named in the catalog. -/
def leaf? (type : String) : Option Schema :=
  if type = "String" then some .text
  else (dropPrefix? "crate::objects::" type).bind object?
where
  dropPrefix? (pre text : String) : Option String :=
    if pre.toList.isPrefixOf text.toList then
      some (String.ofList (text.toList.drop pre.length))
    else none

/-- The schema of a type named in the catalog. A type that is not known has no fields. -/
def schemaOf (type : String) : Schema :=
  match ArgType.ofText type with
  | .list element => .list (leaf element)
  | _ => leaf type
where
  leaf (type : String) : Schema := (leaf? type).getD (.record type [])

/-- The method of an endpoint of the catalog. -/
def method? (endpoint : String) : Option Method := do
  let e ← catalog.endpoints.find? (·.name == endpoint)
  (Method.ofEndpoint e).toOption

/-- Calls are sent with a token. -/
structure Client where
  http : Post.Client
  token : String
  deriving DecidableEq, Repr

namespace Client

def withBaseUrl (token base : String) : Except Post.Fault Client := do
  return ⟨← Post.Client.make base (some userAgent) none, token⟩

def new (token : String) : Except Post.Fault Client := withBaseUrl token apiUrl

/-- The form of a call. -/
def form (c : Client) (call : Call) : Except Call.Fault Form :=
  call.form ({} : Settings).tokenKey c.token

/-- What the payload of a call is. -/
def payloadSchema (call : Call) : Schema := schemaOf call.endpoint.returnType

def execute (c : Client) (call : Call) (cancelled : Bool)
    (peer : Post.Request → List (Poll Post.Reply)) :
    Execution (Option (payloadSchema call).Value) :=
  call.execute c.http ({} : Settings).tokenKey c.token (payloadSchema call) cancelled peer

end Client

/-! Calls from documents -/

/-- What an argument holds that is given as a document. -/
def heldOf (type : ArgType) (doc : Json) : Except Json.Mismatch Held :=
  match type with
  | .text => return .text (← Schema.textOf doc)
  | .boolean => return .boolean (← Schema.flagOf doc)
  | .integer => return .integer (← Schema.integerOf doc)
  | .list element => do
    let s := schemaOf element
    let items : List s.Value ← (Schema.list s).ofJson doc
    return .list (items.map fun v => .ok (s.toJson v))
  | .object type => do
    let s := schemaOf type
    return .object (some (.ok (s.toJson (← s.ofJson doc))))

/-- The change that a setter of an argument makes. -/
def changeOf (a : Argument) (setter : String) (doc : Json) : Except Json.Mismatch Change :=
  match a.type with
  | .list element =>
    if setter = Naming.snakeCase a.appendName then do
      let s := schemaOf element
      return .append a.name (.ok (s.toJson (← s.ofJson doc)))
    else return .set a.name (← heldOf a.type doc)
  | type => return .set a.name (← heldOf type doc)

/-- The change that a setter of a call makes; none if the call has no such setter. -/
def change? (call : Call) (setter : String) (doc : Json) :
    Option (Except Json.Mismatch Change) :=
  (call.endpoint.arguments.find? (·.setterNames.contains setter)).map (changeOf · setter doc)

end Bindery.Slack
