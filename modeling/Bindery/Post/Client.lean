import Bindery.Context.Race
import Bindery.Event
import Bindery.Form.Body
import Bindery.Post.Reply
import Bindery.Url.Reference

/-!
# Posting forms

A client posts forms to the endpoints below its base URL. The request is raced against the context
of the caller.
-/
namespace Bindery.Post

structure Client where
  base : Url
  userAgent : Option String := none
  /-- Milliseconds a request may take. -/
  timeout : Nat := 30000
  deriving DecidableEq, Repr

structure Request where
  url : Url
  body : String
  userAgent : Option String
  deriving DecidableEq, Repr

/-- Whether a character may stand in a header. -/
def isHeaderChar (c : Char) : Bool := c == '\t' || (' ' ≤ c && c != '\x7f')

/-- A base URL ends in a slash, so that endpoints are appended to it. -/
def withSlash (base : String) : String :=
  if base.toList.getLast? == some '/' then base else base.push '/'

namespace Client

/-- The client with a base URL, a user agent and a timeout, as far as they are given. -/
def make (base : String) (userAgent : Option String) (timeout : Option Nat) :
    Except Fault Client := do
  let url ← (Url.parse (withSlash base)).mapError (.url "")
  if userAgent.any fun s => !s.toList.all isHeaderChar then throw .request
  return ⟨url, userAgent, timeout.getD 30000⟩

/-- The request that posts a form to an endpoint. -/
def request (c : Client) (endpoint : String) (form : Form) : Except Fault Request := do
  let url ← (c.base.join endpoint).mapError (.url endpoint)
  return ⟨url, form.body, c.userAgent⟩

end Client

/-- Whether requests to a URL can be made. -/
def canReach (u : Url) : Bool := (u.scheme == "http" || u.scheme == "https") && u.authority.isSome

/-- What posting led to. -/
structure Posting (α : Type) where
  events : List Event := []
  /-- The request, if it was started. -/
  request : Option Request := none
  /-- None while the race goes on. -/
  result : Option (Except Fault α)

/-- How the race goes when a request is looked at as often as `polls` says; one that cannot be made
fails as soon as it is looked at. -/
def Request.polls (r : Request) (reader : Json.Reader α) (polls : List (Poll Reply)) :
    List (Poll α) :=
  polls.map fun p => {
    cancelled := p.cancelled
    expired := p.expired
    result := if canReach r.url then (p.result.map (·.bind (Reply.take reader)))
      else some (.error .request) }

/-- Posts a form and reads the reply. `peer` tells how the race for a request goes. -/
def Client.post (c : Client) (reader : Json.Reader α) (cancelled : Bool) (endpoint : String)
    (form : Form) (peer : Request → List (Poll Reply)) : Posting α :=
  match c.request endpoint form with
  | .error why => { result := some (.error why) }
  | .ok r =>
    let events := [⟨.debug, "posting form", [("params", toString form.size)]⟩]
    if cancelled then { events, result := some (.error .cancelled) }
    else
      let polls := peer r
      let started := canReach r.url && polls.head?.any Poll.reachesWork
      { events, request := if started then some r else none
        result := race? (r.polls reader polls) }

/-- How a race goes with a peer that has its reply at once or never, given the time left until the
deadline and the time the client waits. -/
def prompt (deadline : Option Nat) (timeout : Nat) (reply : Option Reply) : List (Poll Reply) :=
  if deadline == some 0 then [{ expired := true }]
  else
    match if timeout == 0 then some .lost else reply with
    | some r => [{ result := some (.ok r) }]
    | none =>
      if deadline.any (· ≤ timeout) then [{}, { expired := true }]
      else [{}, { result := some (.ok .lost) }]

end Bindery.Post
