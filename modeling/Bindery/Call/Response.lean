import Bindery.Catalog.Basic
import Bindery.Envelope

/-!
# Responses

A response is an envelope with a payload: in a field of its own, or spread over the envelope. What
else a response holds is not looked at. The type of `Emission.responseStruct` is decoded like this.
-/
namespace Bindery

open Json (Schema Reader)

/-- Where the payload lies. -/
inductive Place where
  | nowhere
  | field (name : String)
  | spread
  deriving DecidableEq, Repr

def Endpoint.place (e : Endpoint) : Place :=
  if !e.hasReturn then .nowhere
  else if e.responseField = "" then .spread
  else .field e.responseField

/-- How the payload is named when it is missing. -/
def Endpoint.payloadName (e : Endpoint) : String :=
  if e.responseField = "" then e.returnType else e.responseField

/-- An envelope and the payload, if there is one. -/
structure Response (α : Type) where
  envelope : Envelope
  payload : Option α := none

namespace Response

/-- The members of a response: the payload if it has a field of its own, and all others. -/
structure Members (s : Schema) where
  named : Option (Option s.Value) := none
  others : List (String × Json) := []

/-- Levels that may nest within a response. -/
def innerDepth : Nat := Json.maxDepth - 1

def member (s : Schema) (field? : Option String) (key : String) (ms : Members s) :
    Json.Member (Members s) :=
  if field? = some key then
    match ms.named with
    | some _ => .repeated (.duplicateField key)
    | none => .known do
      return { ms with named := some (← Json.optional (s.read innerDepth)) }
  else .known do
    return { ms with others := ms.others ++ [(key, ← Json.value innerDepth)] }

/-- A payload from the members that are not those of the envelope. One that does not fit is none. -/
def spreadPayload (s : Schema) (ms : List (String × Json)) : Option s.Value :=
  match s with
  | .record _ fields =>
    let rest := ms.filter fun m => !(Envelope.fields.map (·.1.key)).contains m.1
    (Schema.ofMembers fields rest).toOption
  | _ => none

/-- The response with the given members. -/
def ofMembers (s : Schema) (place : Place) (ms : Members s) :
    Except Json.Mismatch (Response s.Value) := do
  let row ← Schema.ofMembers Envelope.fields ms.others
  return ⟨Envelope.ofRow row, match place with
    | .nowhere => none
    | .field _ => ms.named.join
    | .spread => spreadPayload s ms.others⟩

/-- Reads a response with a payload. -/
def objectReader (s : Schema) (place : Place) : Reader (Response s.Value) := do
  let field? := match place with
    | .field name => some name
    | _ => none
  match ← Json.peekPastSpace with
  | none => Json.stop .endInValue
  | some '\x7b' => Json.readObject (member s field?) {} (ofMembers s place)
  | some c => Json.refuse "struct Response" c

def reader (s : Schema) (place : Place) : Reader (Response s.Value) :=
  match place with
  | .nowhere => do return ⟨← Envelope.reader, none⟩
  | place => objectReader s place

end Response

end Bindery
