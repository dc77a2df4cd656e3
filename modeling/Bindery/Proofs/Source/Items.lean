import Bindery.Proofs.Source.Attributes

/-!
# Items and files are read again

An item ends by itself, so that it is read again whatever follows it, and so are the items of a
file one after the other.
-/
namespace Bindery.Source

open Bindery.Source.Parser Bindery.Source.Grammar

variable (g : Rules)

/-- An item is read again, whatever follows it. -/
def ItemRereads (i : Item) : Prop := ∀ rest, Reads (Grammar.item g) (i.tokens ++ rest) i rest

section Starts

variable {g} {ts rest : List Token} {i : Item}

theorem ne_nil_of_reads_item (h : Reads (Grammar.item g) ts i rest) : ts ≠ [] := by
  rintro rfl
  cases h none

/-- The mark of an inner attribute stands where an outer one has its bracket. -/
theorem noInner_of_reads_item (h : Reads (Grammar.item g) ts i rest) : NoInner ts := by
  refine Bool.eq_false_iff.2 fun hinner => ?_
  rw [Bool.and_eq_true] at hinner
  obtain ⟨hhash, hbang⟩ := hinner
  obtain ⟨c, joint, ts, rfl⟩ := exists_punct_of_opAhead hhash
  obtain rfl : '#' = c := by simpa [opAhead, opAhead.go] using hhash
  obtain ⟨c, joint, ts, rfl⟩ := exists_punct_of_opAhead hbang
  have h := h.run none
  unfold Grammar.item outerAttributes many at h
  simp [upTo, hhash, delimited, dropOp, group, refuse] at h
  cases h

theorem reads_itemOr {p : Parser (Option Item)} (h : Reads p ts (some i) rest)
    (start : List Token) : Reads (itemOr start p) ts i rest := h.bind (reads_pure _ _)

end Starts

/-! Modules -/

variable {g} in
theorem moduleItem_rereads {attrs : List Attribute} (h : ∀ a ∈ attrs, AttributeRereads g false a)
    {name : Ident} (hname : Ident.isKeyword name = false) :
    ItemRereads g (.moduleItem (.ofList attrs) publicFront false name .absent) := by
  intro rest
  have htokens : Tree.tokens (.moduleItem (.ofList attrs) publicFront false name .absent) ++ rest =
      attrs.flatMap Tree.tokens ++
        .word "pub" :: .word "mod" :: .ident name :: .punct ';' false :: rest := by
    simp [flagWord, punct, List.flatMap_def]
  have htry : name ≠ ⟨"try", false⟩ := by
    rintro rfl
    revert hname
    decide
  have hmod : Reads (moduleItem g (.ofList attrs) publicFront)
      (.word "mod" :: .ident name :: .punct ';' false :: rest)
      (.moduleItem (.ofList attrs) publicFront false name .absent) rest := by
    simp [Reads, Grammar.moduleItem, htry, hname, opAhead, opAhead.go, dropOp]
  rw [htokens]
  refine (reads_remaining _).bind ((reads_outerAttributes h (by simp)).bind
    ((reads_everywhere (by simp)).bind (reads_itemOr ((reads_remaining _).bind ?_) _)))
  simp only [signatureAhead, wordAhead_word]
  exact hmod.bind (reads_pure _ _)

/-! Files -/

/-- A file whose parts are read again is read again. -/
theorem File.ofTokens_tokens {f : File}
    (hattrs : ∀ a ∈ f.attrs, AttributeRereads (rules (levels f.tokens)) true a)
    (hitems : ∀ i ∈ f.items, ItemRereads (rules (levels f.tokens)) i) :
    File.ofTokens f.tokens = .ok f := by
  have hlater : NoInner (f.items.flatMap Tree.tokens) := by
    cases hf : f.items with
    | nil => exact rfl
    | cons i rest =>
      rw [List.flatMap_cons]
      exact noInner_of_reads_item (hitems i (by simp [hf]) _)
  have hitems := reads_manyToEnd hitems fun i hi => by
    simpa using ne_nil_of_reads_item (hitems i hi [])
  refine runAll_of_reads ((reads_innerAttributes hattrs hlater).bind (hitems.bind ?_))
  rw [Tree.toList_ofList]
  exact reads_pure _ _

end Bindery.Source
