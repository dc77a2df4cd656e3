import Bindery.Json.Printer
import Bindery.Keyed

/-!
# Forms

The parameters of a call: texts under distinct keys, sorted by key.
-/
namespace Bindery

structure Form where
  pairs : Keyed String
  ascending : pairs.Ascending

namespace Form

@[ext] theorem ext {f g : Form} (h : f.pairs = g.pairs) : f = g := by
  cases f
  cases g
  cases h
  rfl

instance : DecidableEq Form := fun f g =>
  decidable_of_iff (f.pairs = g.pairs) ⟨ext, congrArg pairs⟩

def empty : Form := ⟨[], Keyed.ascending_nil⟩

/-- Sets a parameter; the value it had is replaced. -/
def set (key value : String) (f : Form) : Form :=
  ⟨f.pairs.put key value, Keyed.ascending_put key value f.ascending⟩

def get? (f : Form) (key : String) : Option String := f.pairs.lookup key

def contains (f : Form) (key : String) : Bool := (f.get? key).isSome

def size (f : Form) : Nat := f.pairs.length

def isEmpty (f : Form) : Bool := f.pairs.isEmpty

/-- Sets the pairs in their order. -/
def ofPairs (ps : List (String × String)) : Form := ps.foldl (fun f p => f.set p.1 p.2) empty

def toJson (f : Form) : Json := .object (f.pairs.map fun p => (p.1, .string p.2))

@[simp] theorem get?_set_self (f : Form) (key value : String) :
    (f.set key value).get? key = some value := Keyed.lookup_put_self ..

theorem get?_set_ne (f : Form) {key other : String} (h : other ≠ key) (value : String) :
    (f.set key value).get? other = f.get? other := Keyed.lookup_put_ne h ..

end Form

end Bindery
