import Bindery.Keyed

/-!
# JSON documents

A document keeps the members of its objects in the order they were written, repeated keys
included.
-/
namespace Bindery

inductive Json where
  | null
  | bool (b : Bool)
  | integer (n : Int)
  | real (x : Float)
  | string (s : String)
  | array (items : List Json)
  | object (members : List (String × Json))
  deriving Inhabited, Repr, BEq

namespace Json

mutual

/-- Sorts the members of every object by key; of equal keys the last one counts. -/
def sorted : Json → Json
  | .array items => .array (sortedItems items)
  | .object members => .object (Keyed.ofPairs (sortedMembers members))
  | other => other

def sortedItems : List Json → List Json
  | [] => []
  | item :: rest => sorted item :: sortedItems rest

def sortedMembers : List (String × Json) → List (String × Json)
  | [] => []
  | (key, value) :: rest => (key, sorted value) :: sortedMembers rest

end

end Json

end Bindery
