import Bindery.Proofs.Identifiers
import Bindery.Proofs.Index

/-!
# Escaping

Snake case has single underscores between its words and none at its ends. So no escaped name is
another name or a reserved word: names are written alike only if they are the same. Not every name
that passes for an identifier is a word of the emitted language, and one that is not is never
written.
-/
namespace Bindery

namespace Naming

open Bindery.Text

/-- Underscores stand alone, and between other characters. -/
structure Joined (s : List Char) : Prop where
  first : s.head? ≠ some '_'
  last : s.getLast? ≠ some '_'
  single : ¬ ['_', '_'] <:+: s

/-- Words that are not empty are parted by the underscores that join them. -/
theorem joined_intercalate {ws : List (List Char)} (h : ∀ w ∈ ws, w ≠ [] ∧ '_' ∉ w) :
    Joined (['_'].intercalate ws) := by
  by_cases hnil : ws = []
  · subst hnil
    exact ⟨by simp, by simp, by simp⟩
  · -- Cutting the join at the underscores gives the words back, none of which is empty.
    have hpieces : splitBy (· == '_') (['_'].intercalate ws) = ws :=
      splitBy_intercalate hnil fun w hw => (h w hw).2
    have hne : [] ∉ splitBy (· == '_') (['_'].intercalate ws) := fun hmem =>
      (h [] (hpieces ▸ hmem)).1 rfl
    have hcut : ∀ front back, ['_'].intercalate ws = front ++ '_' :: back →
        [] ∉ splitBy (· == '_') front ∧ [] ∉ splitBy (· == '_') back := by
      intro front back heq
      rw [heq, splitBy_append (by simp), List.mem_append, not_or] at hne
      exact hne
    refine ⟨fun hfirst => ?_, getLast?_intercalate_ne h, ?_⟩
    · obtain ⟨back, hback⟩ := List.head?_eq_some_iff.1 hfirst
      exact (hcut [] back hback).1 (by simp [splitBy])
    · rintro ⟨front, back, hinfix⟩
      have hdouble : ['_'].intercalate ws = front ++ '_' :: '_' :: back := by
        rw [← hinfix]
        simp
      exact (hcut front ('_' :: back) hdouble).2 (by simp [splitBy])

theorem joined_snakeCase (s : String) : Joined (snakeCase s).toList := by
  obtain ⟨ws, hws, hs⟩ := exists_snakeCase_eq s
  rw [hs]
  exact joined_intercalate hws

/-- The words that are no identifiers as they are. -/
def reserved : List String := pathKeywords ++ rawKeywords ++ Source.keywords

theorem mem_reserved_cases {n : String} (h : n ∈ reserved) :
    n = "_" ∨ isPathKeyword n = true ∨ rawKeywords.contains n = true := by
  have hall : ∀ k ∈ reserved, k = "_" ∨ isPathKeyword k = true ∨ rawKeywords.contains k = true := by
    decide +kernel
  exact hall n h

/-- No escaped name is reserved. -/
theorem escapeName_not_reserved {n : String} (hn : Unmarked n) : escapeName n ∉ reserved := by
  have hmarks : ∀ k ∈ reserved, '#' ∉ k.toList := by decide +kernel
  unfold escapeName
  split
  · rename_i hp
    have hall : ∀ k ∈ pathKeywords, k ++ "_" ∉ reserved := by decide +kernel
    exact hall n (List.contains_iff_mem.1 hp)
  · rename_i hp
    split
    · exact fun hmem => hmarks _ hmem (by simp)
    · rename_i hraw
      intro hmem
      rcases mem_reserved_cases hmem with rfl | h | h
      · exact hn.last rfl
      · exact hp h
      · exact hraw h

end Naming

open Naming Emission

section

variable {a b : String}

theorem unmarked_of_isIdentifier (ha : isIdentifier (snakeCase a) = true) :
    Unmarked (snakeCase a) := unmarked_snakeCase (hash_not_mem_of_isIdentifier ha)

theorem escapeName_snakeCase_iff (ha : isIdentifier (snakeCase a) = true)
    (hb : isIdentifier (snakeCase b) = true) :
    escapeName (snakeCase a) = escapeName (snakeCase b) ↔ snakeCase a = snakeCase b :=
  ⟨escapeName_injective (unmarked_of_isIdentifier ha) (unmarked_of_isIdentifier hb),
    congrArg escapeName⟩

/-- A name whose snake case is an identifier of ASCII characters is emitted. -/
theorem exists_catalogIdent_of_ascii (hascii : Text.Ascii (snakeCase a).toList)
    (ha : isIdentifier (snakeCase a) = true) : ∃ i, catalogIdent a = .ok i :=
  exists_nameIdent_iff.2 (Endpoint.IsAscii.isWord_usable_of_isIdentifier hascii ha)

/-- Two names are emitted alike exactly if they have one snake case and it is a word. -/
theorem emitted_alike_iff (ha : isIdentifier (snakeCase a) = true)
    (hb : isIdentifier (snakeCase b) = true) :
    (∃ i j, catalogIdent a = .ok i ∧ catalogIdent b = .ok j ∧ i.text = j.text) ↔
      snakeCase a = snakeCase b ∧ Text.isWord (usable (snakeCase a)).toList = true := by
  constructor
  · rintro ⟨i, j, hi, hj, htext⟩
    rw [(nameIdent_eq_ok hi).1, (nameIdent_eq_ok hj).1] at htext
    exact ⟨(escapeName_snakeCase_iff ha hb).1 htext, exists_nameIdent_iff.1 ⟨i, hi⟩⟩
  · rintro ⟨heq, hword⟩
    obtain ⟨i, hi⟩ := exists_nameIdent_iff.2 hword
    have hj : catalogIdent b = .ok i := by
      rw [catalogIdent, ← heq]
      exact hi
    exact ⟨i, i, hi, hj, rfl⟩

end

/-- Snake case has underscores only one by one and inside. So no name whose snake case passes for an
identifier is reserved when escaped, and different ones are escaped differently. Such a name is
emitted as it is escaped, if it is a word when escaped, and else not at all; all names of ASCII
characters are. -/
theorem escaping_faithful (a b : String) :
    Joined (snakeCase a).toList ∧
    (isIdentifier (snakeCase a) = true →
      escapeName (snakeCase a) ∉ reserved ∧
      (∀ i, catalogIdent a = .ok i → i.text = escapeName (snakeCase a)) ∧
      ((∃ i, catalogIdent a = .ok i) ↔ Text.isWord (usable (snakeCase a)).toList = true) ∧
      (Text.Ascii (snakeCase a).toList → ∃ i, catalogIdent a = .ok i)) ∧
    (isIdentifier (snakeCase a) = true → isIdentifier (snakeCase b) = true →
      (escapeName (snakeCase a) = escapeName (snakeCase b) ↔ snakeCase a = snakeCase b) ∧
      ((∃ i j, catalogIdent a = .ok i ∧ catalogIdent b = .ok j ∧ i.text = j.text) ↔
        snakeCase a = snakeCase b ∧ Text.isWord (usable (snakeCase a)).toList = true)) := by
  refine ⟨joined_snakeCase a, fun ha => ⟨?_, ?_, exists_nameIdent_iff, ?_⟩, fun ha hb => ?_⟩
  · exact escapeName_not_reserved (unmarked_of_isIdentifier ha)
  · exact fun i hi => (nameIdent_eq_ok hi).1
  · exact fun hascii => exists_catalogIdent_of_ascii hascii ha
  · exact ⟨escapeName_snakeCase_iff ha hb, emitted_alike_iff ha hb⟩

/-- A reserved word that gets an underscore and one with an underscore of its own, which snake case
drops; and the circled letter, which passes for an identifier and is not emitted. -/
theorem super_escaped : isIdentifier (snakeCase "super") = true ∧
    (∃ i, catalogIdent "super" = .ok i ∧ i.text = "super_") ∧
    (∃ i j, catalogIdent "super" = .ok i ∧ catalogIdent "super_" = .ok j ∧ i.text = j.text) ∧
    (∀ i j, catalogIdent "super" = .ok i → catalogIdent "self" = .ok j → i.text ≠ j.text) ∧
    isIdentifier (snakeCase "ⓐ") = true ∧ ∀ i, catalogIdent "ⓐ" ≠ .ok i := by
  have hsuper : isIdentifier (snakeCase "super") = true := by decide +kernel
  have hsuper' : isIdentifier (snakeCase "super_") = true := by decide +kernel
  have hself : isIdentifier (snakeCase "self") = true := by decide +kernel
  have hcircled : isIdentifier (snakeCase "ⓐ") = true := by decide +kernel
  have hsnake : snakeCase "super" = "super" := by decide +kernel
  have hsnake' : snakeCase "super_" = "super" := by decide +kernel
  have hword : Text.isWord (usable (snakeCase "super")).toList = true := by decide +kernel
  obtain ⟨-, hname, hpair⟩ := escaping_faithful "super" "super_"
  obtain ⟨-, htext, hemitted, -⟩ := hname hsuper
  obtain ⟨i, hi⟩ := hemitted.2 hword
  refine ⟨hsuper, ⟨i, hi, ?_⟩, ?_, ?_, hcircled, ?_⟩
  · rw [htext i hi, hsnake]
    decide +kernel
  · exact (hpair hsuper hsuper').2.2 ⟨hsnake.trans hsnake'.symm, hword⟩
  · intro i j hi hj heq
    obtain ⟨-, -, hapart⟩ := escaping_faithful "super" "self"
    have hsame := ((hapart hsuper hself).2.1 ⟨i, j, hi, hj, heq⟩).1
    exact absurd hsame (by decide +kernel)
  · intro i hi
    have hnone : Text.isWord (usable (snakeCase "ⓐ")).toList = false := by decide +kernel
    obtain ⟨-, hletter, -⟩ := escaping_faithful "ⓐ" "ⓐ"
    rw [(hletter hcircled).2.2.1.1 ⟨i, hi⟩] at hnone
    cases hnone

end Bindery
