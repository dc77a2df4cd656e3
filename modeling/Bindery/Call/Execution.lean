import Bindery.Call.Basic
import Bindery.Call.Response
import Bindery.Post.Client

/-!
# Executing calls

A call is executed by posting its form and reading the response.
-/
namespace Bindery

open Json (Schema)

/-- What executing a call led to. -/
structure Execution (α : Type) where
  events : List Event := []
  /-- The request, if it was started. -/
  request : Option Post.Request := none
  /-- None while the request goes on. -/
  result : Option (Except Call.Fault α)

/-- The payload of a response, if the endpoint has one: what the function of `Emission.postFn` does
with it, from `Emission.checkStmt` on. -/
def Endpoint.payload (e : Endpoint) (r : Response α) : Except Call.Fault (Option α) :=
  if !r.envelope.ok then .error (.remote r.envelope.error)
  else if e.place = .nowhere then .ok none
  else
    match r.payload with
    | some v => .ok (some v)
    | none => .error (.missingPayload e.name e.payloadName)

/-- The payload of an endpoint from what posting gave. -/
def Endpoint.outcome (e : Endpoint) : Except Post.Fault (Response α) →
    Except Call.Fault (Option α)
  | .error why => .error (.post e.name why)
  | .ok r => e.payload r

/-- Executes a call, as the function of `Emission.postFn` does. `s` describes the payload, and
`peer` tells how the race for a request goes. -/
def Call.execute (c : Call) (client : Post.Client) (tokenKey token : String) (s : Schema)
    (cancelled : Bool) (peer : Post.Request → List (Poll Post.Reply)) :
    Execution (Option s.Value) :=
  match c.form tokenKey token with
  | .error why => { result := some (.error why) }
  | .ok form =>
    let e := c.endpoint
    let posting := client.post (Response.reader s e.place) cancelled e.name form peer
    ⟨posting.events, posting.request, posting.result.map e.outcome⟩

end Bindery
