import Bindery.Context.Basic
import Mathlib

/-!
# Histories of contexts

A history lists what was done to contexts, one thing after the other. It says alone which context
was made from which, and so which contexts share a mark and which one is an ancestor of which.
-/
namespace Bindery.Contexts

/-- What is done to contexts. -/
inductive Operation where
  /-- Makes a context from the one at an index, at some time. -/
  | derive (now index : Nat) (d : Derivation)
  | cancel (index : Nat)
  deriving DecidableEq, Repr

/-- Does one thing. None if the context that it is done to was never made, or if the one to be made
has a deadline beyond time. -/
def perform? (cs : Contexts) : Operation → Option Contexts
  | .derive now index d => cs.derive? now index d
  | .cancel index => if index < cs.made.length then some (cs.cancel index) else none

/-- Does all of a history. -/
def run? (cs : Contexts) (ops : List Operation) : Option Contexts := ops.foldlM perform? cs

theorem run?_append {cs cs' : Contexts} {ops more : List Operation} :
    cs.run? (ops ++ more) = some cs' ↔ ∃ mid, cs.run? ops = some mid ∧ mid.run? more = some cs' := by
  rw [run?, List.foldlM_append]
  exact Option.bind_eq_some_iff

theorem run?_concat {cs cs' : Contexts} {ops : List Operation} {op : Operation} :
    cs.run? (ops ++ [op]) = some cs' ↔ ∃ mid, cs.run? ops = some mid ∧ mid.perform? op = some cs' := by
  rw [run?_append]
  have hone : ∀ mid : Contexts, mid.run? [op] = mid.perform? op := fun mid => by
    cases h : mid.perform? op <;> simp [run?, h]
  simp only [hone]

theorem derive?_eq_some_iff {cs cs' : Contexts} {now index : Nat} {d : Derivation} :
    cs.derive? now index d = some cs' ↔ ∃ c made, cs.made[index]? = some c ∧
      c.derive? now cs.made.length d = some made ∧ cs' = ⟨cs.made ++ [made], cs.set⟩ := by
  simp only [derive?, Option.bind_eq_bind, Option.bind_eq_some_iff]
  constructor
  · rintro ⟨c, hc, made, hmade, h⟩
    exact ⟨c, made, hc, hmade, (Option.some.inj h).symm⟩
  · rintro ⟨c, made, hc, hmade, rfl⟩
    exact ⟨c, hc, made, hmade, rfl⟩

theorem cancel_eq {cs : Contexts} {index : Nat} {c : Context} (hc : cs.made[index]? = some c) :
    cs.cancel index = cs.cancelMark c.mark := by
  rw [cancel, hc]

/-- What one step does: a context is added, or a mark is set. -/
theorem perform?_cases {cs cs' : Contexts} {op : Operation} (h : cs.perform? op = some cs') :
    (∃ now index d c made, op = .derive now index d ∧ cs.made[index]? = some c ∧
      c.derive? now cs.made.length d = some made ∧ cs' = ⟨cs.made ++ [made], cs.set⟩) ∨
    ∃ index c, op = .cancel index ∧ cs.made[index]? = some c ∧ cs' = cs.cancelMark c.mark := by
  cases op with
  | derive now index d =>
    obtain ⟨c, made, hc, hmade, rfl⟩ := derive?_eq_some_iff.1 h
    exact .inl ⟨now, index, d, c, made, rfl, hc, hmade, rfl⟩
  | cancel index =>
    rw [perform?] at h
    split at h
    · rename_i hindex
      have hc : cs.made[index]? = some cs.made[index] := List.getElem?_eq_getElem hindex
      exact .inr ⟨index, _, rfl, hc, (Option.some.inj h).symm.trans (cancel_eq hc)⟩
    · cases h

/-! Lineage -/

/-- The context each context was made from, and how, in the order they were made. The first one is
there from the start and is a background context. -/
def origins (ops : List Operation) : List (Nat × Derivation) :=
  (0, .background) :: ops.filterMap fun
    | .derive _ index d => some (index, d)
    | .cancel _ => none

/-- The context at the second index was made from the one at the first, in the given way. -/
def Made (ops : List Operation) (j k : Nat) (d : Derivation) : Prop :=
  (origins ops)[k]? = some (j, d)

/-- Made from the other one, and reached by its cancellation. -/
def Derived (ops : List Operation) (j k : Nat) : Prop := ∃ d, Made ops j k d ∧ d ≠ .background

/-- Derived with a mark of its own. -/
def Child (ops : List Operation) (j k : Nat) : Prop :=
  ∃ d, Made ops j k d ∧ d ≠ .background ∧ d ≠ .clone

/-- Clones of one context, clones of clones and so on. -/
def Sharing (ops : List Operation) : Nat → Nat → Prop :=
  Relation.EqvGen fun j k => Made ops j k .clone

/-- A context, the one that it was derived from, and so on. -/
def Ancestor (ops : List Operation) : Nat → Nat → Prop := Relation.ReflTransGen (Derived ops)

/-- An ancestor that is not just what clones were made of. -/
def ProperAncestor (ops : List Operation) (a k : Nat) : Prop :=
  ∃ b c, Ancestor ops a b ∧ Child ops b c ∧ Ancestor ops c k

/-- Different contexts derived from one context, or from contexts that share a mark. -/
def Siblings (ops : List Operation) (j k : Nat) : Prop :=
  j ≠ k ∧ ∃ p q, Sharing ops p q ∧ Child ops p j ∧ Child ops q k

/-- The second context is the first one, or shares its mark, or has such an ancestor. -/
def Covers (ops : List Operation) (j k : Nat) : Prop := ∃ a, Sharing ops j a ∧ Ancestor ops a k

section

variable {ops : List Operation} {j k : Nat} {d : Derivation}

theorem origins_derive (ops : List Operation) (now index : Nat) (d : Derivation) :
    origins (ops ++ [.derive now index d]) = origins ops ++ [(index, d)] := by simp [origins]

theorem origins_cancel (ops : List Operation) (index : Nat) :
    origins (ops ++ [.cancel index]) = origins ops := by simp [origins]

theorem Made.unique {j' : Nat} {d' : Derivation} (h : Made ops j k d) (h' : Made ops j' k d') :
    j = j' ∧ d = d' := by
  have hpair := Option.some.inj (h.symm.trans h')
  exact ⟨congrArg Prod.fst hpair, congrArg Prod.snd hpair⟩

theorem ancestor_background {a : Nat} (h : Made ops j k .background) :
    Ancestor ops a k ↔ a = k := by
  refine ⟨fun ha => ?_, fun ha => ha ▸ .refl⟩
  rcases Relation.ReflTransGen.cases_tail ha with heq | ⟨b, -, d, hmade, hd⟩
  · exact heq.symm
  · exact absurd (h.unique hmade).2.symm hd

theorem ancestor_derived {a : Nat} (h : Made ops j k d) (hd : d ≠ .background) :
    Ancestor ops a k ↔ a = k ∨ Ancestor ops a j := by
  constructor
  · intro ha
    rcases Relation.ReflTransGen.cases_tail ha with heq | ⟨b, hab, d', hmade, -⟩
    · exact .inl heq.symm
    · obtain ⟨rfl, -⟩ := h.unique hmade
      exact .inr hab
  · rintro (rfl | ha)
    · exact .refl
    · exact ha.tail ⟨d, h, hd⟩

end

end Bindery.Contexts
