import Bindery.Json.Fault

/-!
# Maps as objects

A map is written as an object, in the order of its keys, if each of them is a text or an integer.
-/
namespace Bindery.Json

/-- A key of a map. Keys are ordered as listed here and within each kind by value. -/
inductive Key where
  | absent
  | integer (n : Int)
  | text (s : String)
  | list
  deriving DecidableEq, Repr

namespace Key

def rank : Key → Nat
  | .absent => 0
  | .integer _ => 1
  | .text _ => 2
  | .list => 3

def precedes : Key → Key → Bool
  | .integer m, .integer n => m < n
  | .text s, .text t => s < t
  | a, b => a.rank < b.rank

/-- The key of a member, if the map key can be one. -/
def name? : Key → Option String
  | .integer n => some (toString n)
  | .text s => some s
  | _ => none

end Key

/-- Puts a value under a key; the value it had is replaced. -/
def putKey (key : Key) (value : Json) : List (Key × Json) → List (Key × Json)
  | [] => [(key, value)]
  | (k, v) :: rest =>
    if key.precedes k then (key, value) :: (k, v) :: rest
    else if key = k then (key, value) :: rest
    else (k, v) :: putKey key value rest

/-- The object of a map, given as pairs of which the last with a key counts. -/
def ofMap (ps : List (Key × Json)) : Except Fault Json :=
  let sorted := ps.foldl (fun done p => putKey p.1 p.2 done) []
  let member (p : Key × Json) : Except Fault (String × Json) :=
    match p.1.name? with
    | some name => .ok (name, p.2)
    | none => .error ⟨.keyNotString, none⟩
  (sorted.mapM member).map .object

end Bindery.Json
