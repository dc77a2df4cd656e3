import Bindery.Emission.Slot
import Bindery.Proofs.Splitting
import Bindery.Proofs.Steps

/-!
# Names of emitted items

Snake case joins words that are not empty and have no underscores, so that no name of it ends in an
underscore. Escaping appends an underscore to some reserved words and marks others as raw, and never
makes two such names equal.
-/
namespace Bindery

open Bindery.Text

/-! Characters -/

namespace Text

theorem isAlphanumeric_underscore : isAlphanumeric '_' = false := by decide

theorem isAlphanumeric_slash : isAlphanumeric '/' = false := by decide

theorem isAlphanumeric_hash : isAlphanumeric '#' = false := by decide

theorem continuesIdentifier_hash : continuesIdentifier '#' = false := by decide

theorem startsIdentifier_hash : startsIdentifier '#' = false := by decide

/-- Lowercase letters come after the underscore. -/
theorem underscore_lt_target : ∀ s ∈ lowerShifts, 0x5f < s.target := by decide +kernel

theorem eq_of_ofNat_eq_underscore {n : Nat} (h : Char.ofNat n = '_') : n = 0x5f := by
  by_cases hvalid : n.isValidChar
  · have hto : (Char.ofNat n).toNat = n := by simp [Char.ofNat, hvalid, Char.toNat, Char.ofNatAux]
    rw [← hto, h]
    rfl
  · simp only [Char.ofNat, hvalid, dite_false] at h
    exact absurd h (by decide)

theorem underscore_not_mem_lower {c : Char} (h : c ≠ '_') : '_' ∉ lower c := by
  unfold lower mapCase
  split
  · rename_i ns hns
    have hall : ∀ p ∈ lowerSpecials, '_' ∉ p.2.map Char.ofNat := by decide
    obtain ⟨l₁, l₂, hsplit, -⟩ := List.lookup_eq_some_iff.1 hns
    exact hall (c.toNat, ns) (by rw [hsplit]; simp)
  · split
    · rename_i s hs
      intro hmem
      rw [List.mem_singleton] at hmem
      have htarget := underscore_lt_target s (List.mem_of_find?_eq_some hs)
      have hcode := eq_of_ofNat_eq_underscore hmem.symm
      omega
    · simpa using Ne.symm h

theorem lower_ne_nil (c : Char) : lower c ≠ [] := by
  unfold lower mapCase
  split
  · rename_i ns hns
    have hall : ∀ p ∈ lowerSpecials, p.2.map Char.ofNat ≠ [] := by decide
    obtain ⟨l₁, l₂, hsplit, -⟩ := List.lookup_eq_some_iff.1 hns
    exact hall (c.toNat, ns) (by rw [hsplit]; simp)
  · split <;> simp

theorem lowerWord_ne_nil {w : List Char} (h : w ≠ []) : lowerWord w ≠ [] := by
  match w with
  | [] => exact absurd rfl h
  | [c] =>
    unfold lowerWord
    split
    · simp
    · exact lower_ne_nil c
  | c :: d :: rest =>
    unfold lowerWord
    simp [lower_ne_nil]

theorem underscore_not_mem_lowerWord {w : List Char} (h : '_' ∉ w) : '_' ∉ lowerWord w := by
  induction w using lowerWord.induct with
  | case1 => simp [lowerWord]
  | case2 c hc => simp [lowerWord, hc]
  | case3 c hc =>
    rw [lowerWord, if_neg hc]
    exact underscore_not_mem_lower fun e => h (by simp [e])
  | case4 c rest hrest ih =>
    have hstep : lowerWord (c :: rest) = lower c ++ lowerWord rest := by
      rw [lowerWord]
      exact hrest
    rw [hstep, List.mem_append, not_or]
    exact ⟨underscore_not_mem_lower fun e => h (by simp [e]), ih fun hm => h (by simp [hm])⟩

end Text

namespace Naming

/-! Words -/

/-- A word that was begun is not empty, and no word has other characters than the text. -/
theorem wordsFrom_spec (m : Mode) (word s : List Char) (hm : m ≠ .none → word ≠ []) :
    ∀ w ∈ wordsFrom m word s, w ≠ [] ∧ ∀ c ∈ w, c ∈ word ∨ c ∈ s := by
  induction m, word, s using wordsFrom.induct with
  | case1 => simp [wordsFrom]
  | case2 m word c =>
    intro w hw
    rw [wordsFrom, List.mem_singleton] at hw
    subst hw
    refine ⟨by simp, fun d hd => ?_⟩
    rw [List.mem_reverse, List.mem_cons] at hd
    exact hd.symm.imp_right fun e => by simp [e]
  | case3 m word c next rest h ih =>
    intro w hw
    rw [wordsFrom, if_pos h, List.mem_cons] at hw
    rcases hw with rfl | hw
    · refine ⟨by simp, fun d hd => ?_⟩
      rw [List.mem_reverse, List.mem_cons] at hd
      exact hd.symm.imp_right fun e => by simp [e]
    · obtain ⟨hne, hmem⟩ := ih (by simp) w hw
      exact ⟨hne, fun d hd => .inr ((hmem d hd).elim (by simp) (List.mem_cons_of_mem _))⟩
  | case4 m word c next rest h h' ih =>
    intro w hw
    rw [wordsFrom, if_neg h, if_pos h', List.mem_cons] at hw
    rcases hw with rfl | hw
    · have hupper : m ≠ .none := by
        rintro rfl
        simp at h'
      exact ⟨by simpa using hm hupper, fun d hd => .inl (List.mem_reverse.1 hd)⟩
    · obtain ⟨hne, hmem⟩ := ih (by simp) w hw
      refine ⟨hne, fun d hd => .inr ?_⟩
      rcases hmem d hd with hd | hd
      · simp [List.mem_singleton.1 hd]
      · exact List.mem_cons_of_mem _ hd
  | case5 m word c next rest h h' ih =>
    intro w hw
    rw [wordsFrom, if_neg h, if_neg h'] at hw
    obtain ⟨hne, hmem⟩ := ih (by simp) w hw
    refine ⟨hne, fun d hd => ?_⟩
    rcases hmem d hd with hd | hd
    · rcases List.mem_cons.1 hd with rfl | hd
      · exact .inr List.mem_cons_self
      · exact .inl hd
    · exact .inr (List.mem_cons_of_mem _ hd)

theorem words_spec (s : List Char) : ∀ w ∈ words s, w ≠ [] ∧ '_' ∉ w := by
  intro w hw
  obtain ⟨piece, hpiece, hw⟩ := List.mem_flatMap.1 hw
  obtain ⟨hne, hmem⟩ := wordsFrom_spec .none [] piece (by simp) w hw
  refine ⟨hne, fun h => ?_⟩
  have hsplit := splitBy_all piece hpiece '_' ((hmem '_' h).resolve_left (by simp))
  simp [isAlphanumeric_underscore] at hsplit

/-- Snake case is made of words that are not empty and have no underscores. -/
theorem exists_snakeCase_eq (s : String) :
    ∃ ws : List (List Char), (∀ w ∈ ws, w ≠ [] ∧ '_' ∉ w) ∧
      (snakeCase s).toList = ['_'].intercalate ws := by
  refine ⟨(words (pascalFrom true s.toList)).map lowerWord, fun w hw => ?_, ?_⟩
  · obtain ⟨word, hword, rfl⟩ := List.mem_map.1 hw
    obtain ⟨hne, hmem⟩ := words_spec _ word hword
    exact ⟨lowerWord_ne_nil hne, underscore_not_mem_lowerWord hmem⟩
  · rw [snakeCase, String.toList_ofList]

/-- A join ends as its last word does. -/
theorem exists_intercalate_eq {ws : List (List Char)} (h : ws ≠ []) :
    ∃ pre, ['_'].intercalate ws = pre ++ ws.getLast h := by
  induction ws with
  | nil => exact absurd rfl h
  | cons w rest ih =>
    by_cases hnil : rest = []
    · subst hnil
      exact ⟨[], by simp⟩
    · obtain ⟨pre, hpre⟩ := ih hnil
      refine ⟨w ++ ['_'] ++ pre, ?_⟩
      rw [List.intercalate_cons_of_ne_nil hnil, hpre, List.getLast_cons hnil]
      simp

theorem getLast?_intercalate_ne {ws : List (List Char)} (h : ∀ w ∈ ws, w ≠ [] ∧ '_' ∉ w) :
    (['_'].intercalate ws).getLast? ≠ some '_' := by
  by_cases hnil : ws = []
  · simp [hnil]
  · obtain ⟨pre, hpre⟩ := exists_intercalate_eq hnil
    obtain ⟨hne, hmem⟩ := h _ (List.getLast_mem hnil)
    rw [hpre, List.getLast?_append_of_ne_nil _ hne]
    exact fun e => hmem (List.mem_of_getLast? e)

theorem getLast?_snakeCase_ne (s : String) : (snakeCase s).toList.getLast? ≠ some '_' := by
  obtain ⟨ws, hws, hs⟩ := exists_snakeCase_eq s
  rw [hs]
  exact getLast?_intercalate_ne hws

/-! Escaping -/

/-- The identifier for a name, as it is written. -/
def escapeName (n : String) : String :=
  if isPathKeyword n then n ++ "_" else if rawKeywords.contains n then "r#" ++ n else n

/-- A name without the marks that escaping adds. -/
structure Unmarked (n : String) : Prop where
  hash : '#' ∉ n.toList
  last : n.toList.getLast? ≠ some '_'

theorem hash_not_mem_pathKeyword {n : String} (h : isPathKeyword n = true) :
    '#' ∉ (n ++ "_").toList := by
  have hall : ∀ k ∈ pathKeywords, '#' ∉ (k ++ "_").toList := by decide
  exact hall n (List.contains_iff_mem.1 h)

/-- Escaped names are equal only if the names are. -/
theorem escapeName_injective {n n' : String} (hn : Unmarked n) (hn' : Unmarked n')
    (h : escapeName n = escapeName n') : n = n' := by
  have hmark : ∀ m : String, '#' ∈ ("r#" ++ m).toList := fun m => by simp
  have hend : ∀ m : String, (m ++ "_").toList.getLast? = some '_' := fun m => by simp
  unfold escapeName at h
  by_cases hp : isPathKeyword n = true
  · rw [if_pos hp] at h
    by_cases hp' : isPathKeyword n' = true
    · rw [if_pos hp'] at h
      exact String.append_left_inj _ |>.1 h
    · rw [if_neg hp'] at h
      split at h
      · exact absurd (h ▸ hmark n') (hash_not_mem_pathKeyword hp)
      · exact absurd (h ▸ hend n) hn'.last
  · rw [if_neg hp] at h
    by_cases hp' : isPathKeyword n' = true
    · rw [if_pos hp'] at h
      split at h
      · exact absurd (h ▸ hmark n) (hash_not_mem_pathKeyword hp')
      · exact absurd (h ▸ hend n') hn.last
    · rw [if_neg hp'] at h
      split at h
      · split at h
        · exact String.append_right_inj _ |>.1 h
        · exact absurd (h ▸ hmark n) hn'.hash
      · split at h
        · exact absurd (h ▸ hmark n') hn.hash
        · exact h

theorem escapeName_eq_self {n : String} (h : n ∉ pathKeywords) (h' : n ∉ rawKeywords) :
    escapeName n = n := by
  rw [escapeName, if_neg, if_neg]
  · exact fun e => h' (List.contains_iff_mem.1 e)
  · exact fun e => h (List.contains_iff_mem.1 e)

theorem hash_not_mem_of_isWord {w : List Char} (h : Text.isWord w = true) : '#' ∉ w := by
  cases w with
  | nil => simp
  | cons c rest =>
    obtain ⟨hstart, hrest⟩ := Bool.and_eq_true_iff.1 h
    intro hmem
    rcases List.mem_cons.1 hmem with rfl | hmem
    · rw [startsIdentifier_hash] at hstart
      cases hstart
    · have := List.all_eq_true.1 hrest '#' hmem
      rw [continuesIdentifier_hash] at this
      cases this

/-- Identifiers hold letters, numbers and underscores. -/
theorem not_mem_of_isIdentifier {n : String} {c : Char} (hc : c ≠ '_')
    (hnumeric : isAlphanumeric c = false) (h : isIdentifier n = true) : c ∉ n.toList := by
  have halphabetic : isAlphabetic c = false := by
    rw [isAlphanumeric, Bool.or_eq_false_iff] at hnumeric
    exact hnumeric.1
  unfold isIdentifier at h
  split at h
  · cases h
  · rename_i d rest hlist
    simp only [Bool.and_eq_true, Bool.or_eq_true, beq_iff_eq, List.all_eq_true] at h
    rw [hlist]
    intro hmem
    rcases List.mem_cons.1 hmem with rfl | hmem
    · simp [halphabetic, hc] at h
    · simpa [hnumeric, hc] using h.2 c hmem

theorem hash_not_mem_of_isIdentifier {n : String} (h : isIdentifier n = true) :
    '#' ∉ n.toList := not_mem_of_isIdentifier (by decide) isAlphanumeric_hash h

theorem unmarked_snakeCase {s : String} (h : '#' ∉ (snakeCase s).toList) :
    Unmarked (snakeCase s) := ⟨h, getLast?_snakeCase_ne s⟩

end Naming

namespace Emission

open Naming

theorem ofWord?_eq_some {w : String} {i : Ident} (h : Ident.ofWord? w = some i) :
    i.text = w ∧ '#' ∉ w.toList := by
  unfold Ident.ofWord? at h
  split at h
  · rename_i hword
    cases h
    exact ⟨rfl, hash_not_mem_of_isWord hword⟩
  · cases h

/-- A name of its own is emitted escaped. -/
theorem nameIdent_eq_ok {n : String} {i : Ident} (h : nameIdent n = .ok i) :
    i.text = escapeName n ∧ '#' ∉ n.toList := by
  have hname : Ident.ofName? n = some i := by
    unfold nameIdent at h
    split at h
    · rename_i i' hi
      rw [hi, Except.ok.inj h]
    · cases h
  unfold Ident.ofName? at hname
  rw [escapeName]
  split at hname
  · rename_i hp
    obtain ⟨htext, hhash⟩ := ofWord?_eq_some hname
    rw [if_pos hp]
    refine ⟨htext, fun hmem => hhash ?_⟩
    rw [String.toList_append]
    exact List.mem_append_left _ hmem
  · rename_i hp
    rw [if_neg hp]
    split at hname
    · rename_i hraw
      have hall : ∀ k ∈ rawKeywords, '#' ∉ k.toList := by decide
      rw [if_pos hraw]
      cases hname
      exact ⟨rfl, hall n (List.contains_iff_mem.1 hraw)⟩
    · rename_i hraw
      rw [if_neg hraw]
      exact ofWord?_eq_some hname

/-- A name that is spelled is emitted as it is. -/
theorem spelledIdent_eq_ok {text : String} {i : Ident} (h : spelledIdent text = .ok i) :
    i.text = text := by
  unfold spelledIdent at h
  split at h
  · rename_i rest hrest
    dsimp only at h
    split at h
    · cases h
      change "r#" ++ String.ofList rest = text
      rw [← String.toList_inj]
      simp [hrest]
    · cases h
  · split at h
    · rename_i i' hi
      cases h
      exact (ofWord?_eq_some hi).1
    · cases h

end Emission

end Bindery
