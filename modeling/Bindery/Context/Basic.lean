/-!
# Contexts

A context tells work when to stop: when it is cancelled, or at its deadline. Contexts are made from
others; cancelling one reaches all made from it, and deadlines only get tighter.

Times and spans of time are whole milliseconds here. The clock itself counts nanoseconds, which it
compares and adds in the same way.
-/
namespace Bindery

/-- A mark of cancellation. It counts as set when it is set or the one it was made from is. -/
inductive Mark where
  | root (id : Nat)
  | child (id : Nat) (parent : Mark)
  deriving DecidableEq, Repr

namespace Mark

def id : Mark → Nat
  | .root n => n
  | .child n _ => n

/-- Whether a mark counts as set, given those that were set. -/
def isSet (set : List Nat) : Mark → Bool
  | .root n => set.contains n
  | .child n parent => set.contains n || parent.isSet set

end Mark

structure Context where
  mark : Mark
  /-- In milliseconds. -/
  deadline : Option Nat := none
  deriving DecidableEq, Repr

/-- How a context is made from another one. Times and spans are in milliseconds. -/
inductive Derivation where
  | background
  | clone
  | child
  | withDeadline (time : Nat)
  | withTimeout (span : Nat)
  deriving DecidableEq, Repr

/-- The end of time, in milliseconds. The clock counts seconds in 63 bits. Times are counted from the
end of its first second, so a deadline lies beyond the clock exactly if it is not before this. -/
def endOfTime : Nat := 0x7fffffffffffffff * 1000

namespace Context

/-- The tighter one of a deadline and another time. -/
def tighter (deadline : Option Nat) (time : Nat) : Nat :=
  match deadline with
  | some current => if current < time then current else time
  | none => time

/-- Makes a context, with `fresh` for a new mark. None if its deadline lies beyond time. -/
def derive? (c : Context) (now fresh : Nat) : Derivation → Option Context
  | .background => some ⟨.root fresh, none⟩
  | .clone => some c
  | .child => some ⟨.child fresh c.mark, c.deadline⟩
  | .withDeadline time => some ⟨.child fresh c.mark, some (tighter c.deadline time)⟩
  | .withTimeout span =>
    if endOfTime ≤ now + span then none
    else some ⟨.child fresh c.mark, some (tighter c.deadline (now + span))⟩

end Context

/-- Contexts in the order they were made, and the marks that were set. -/
structure Contexts where
  made : List Context
  set : List Nat := []
  deriving DecidableEq, Repr

namespace Contexts

/-- One background context. -/
def start : Contexts := ⟨[⟨.root 0, none⟩], []⟩

/-- Makes a context from the one at an index. The number of contexts is a new mark. -/
def derive? (cs : Contexts) (now index : Nat) (d : Derivation) : Option Contexts := do
  let c ← cs.made[index]?
  let made ← c.derive? now cs.made.length d
  return { cs with made := cs.made ++ [made] }

def cancelMark (cs : Contexts) (m : Mark) : Contexts := { cs with set := m.id :: cs.set }

/-- Cancels the context at an index. -/
def cancel (cs : Contexts) (index : Nat) : Contexts :=
  match cs.made[index]? with
  | some c => cs.cancelMark c.mark
  | none => cs

def isCancelled (cs : Contexts) (c : Context) : Bool := c.mark.isSet cs.set

end Contexts

end Bindery
