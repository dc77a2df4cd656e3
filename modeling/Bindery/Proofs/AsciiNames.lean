import Bindery.Proofs.Acceptability
import Bindery.Proofs.Names

/-!
# Names of ASCII characters

Letters and numbers among the ASCII characters are those of the emitted language, and changing their
case leads to others of them. So names that validation accepts are words if they are ASCII.
-/
namespace Bindery

/-! Characters -/

namespace Text

def Ascii (s : List Char) : Prop := ∀ c ∈ s, c.toNat < 128

instance (s : List Char) : Decidable (Ascii s) :=
  decidable_of_iff (s.all (·.toNat < 128) = true) (by simp [Ascii])

theorem Ascii.append {s t : List Char} (hs : Ascii s) (ht : Ascii t) : Ascii (s ++ t) := by
  intro c hc
  exact (List.mem_append.1 hc).elim (hs c) (ht c)

theorem Ascii.of_subset {s t : List Char} (ht : Ascii t) (h : s ⊆ t) : Ascii s :=
  fun c hc => ht c (h hc)

/-- Below all of a table but its first shift, only that shift changes a character. -/
theorem mapCase_of_lt {specials : List (Nat × List Nat)} {s : Shift} {shifts : List Shift}
    {n : Nat} (hspecials : ∀ p ∈ specials, n ≤ p.1) (hshifts : ∀ s ∈ shifts, n ≤ s.run.low)
    {c : Char} (hc : c.toNat < n) : mapCase specials (s :: shifts) c =
      if s.run.has c.toNat then [Char.ofNat (s.target + (c.toNat - s.run.low))] else [c] := by
  have hlookup : specials.lookup c.toNat = none := by
    refine List.lookup_eq_none_iff.2 fun p hp => ?_
    have := hspecials p hp
    rw [bne_iff_ne]
    omega
  have hfind : shifts.find? (·.run.has c.toNat) = none := by
    refine List.find?_eq_none.2 fun s hs => ?_
    have := hshifts s hs
    simp [Run.has]
    omega
  rw [mapCase, hlookup]
  cases hhas : s.run.has c.toNat with
  | true => simp [hhas]
  | false => simp [hhas, hfind]

/-- A letter or number here is one of the emitted language, and has one character in either case. -/
structure Regular (c : Char) : Prop where
  no_mark : isAlphabetic c = true → c ≠ '.' ∧ c ≠ '_'
  starts : isAlphabetic c = true → startsIdentifier c = true
  continues : isAlphanumeric c = true ∨ c = '_' → continuesIdentifier c = true
  upper : upper c = [c.toUpper]
  lower : lower c = [c.toLower]
  toUpper_lt : c.toUpper.toNat < 128
  toLower_lt : c.toLower.toNat < 128
  toUpper_ne : c ≠ '_' → c.toUpper ≠ '_'
  toUpper_alphabetic : isAlphabetic c = true → isAlphabetic c.toUpper = true
  toLower_alphabetic : isAlphabetic c = true → isAlphabetic c.toLower = true
  toLower_alphanumeric : isAlphanumeric c = true → isAlphanumeric c.toLower = true

/-- Tested for the first 128 code points. -/
theorem regular_of_ascii {c : Char} (hc : c.toNat < 128) : Regular c := by
  have hall : ∀ n < 128, (fun c : Char =>
      (isAlphabetic c = true → (c ≠ '.' ∧ c ≠ '_') ∧ startsIdentifier c = true ∧
        isAlphabetic c.toUpper = true ∧ isAlphabetic c.toLower = true) ∧
      (isAlphanumeric c = true ∨ c = '_' → continuesIdentifier c = true) ∧
      (isAlphanumeric c = true → isAlphanumeric c.toLower = true) ∧
      (if (Run.mk 0x61 0x7a 1).has c.toNat then [Char.ofNat (0x41 + (c.toNat - 0x61))] else [c]) =
        [c.toUpper] ∧
      (if (Run.mk 0x41 0x5a 1).has c.toNat then [Char.ofNat (0x61 + (c.toNat - 0x41))] else [c]) =
        [c.toLower] ∧
      c.toUpper.toNat < 128 ∧ c.toLower.toNat < 128 ∧ (c ≠ '_' → c.toUpper ≠ '_'))
      (Char.ofNat n) := by decide +kernel
  have hregular := hall c.toNat hc
  rw [Char.ofNat_toNat] at hregular
  obtain ⟨halpha, hnumeric, hlower, hup, hlow, hupper, hlt, hne⟩ := hregular
  -- The letters of ASCII are the first shift of either table.
  have hupper' : upper c = [c.toUpper] :=
    (mapCase_of_lt (by decide +kernel) (by decide +kernel) hc).trans hup
  have hlower' : Text.lower c = [c.toLower] :=
    (mapCase_of_lt (by decide +kernel) (by decide +kernel) hc).trans hlow
  exact ⟨fun h => (halpha h).1, fun h => (halpha h).2.1, hnumeric, hupper', hlower', hupper, hlt,
    hne, fun h => (halpha h).2.2.1, fun h => (halpha h).2.2.2, hlower⟩

/-- No ASCII word ends in a capital sigma. -/
theorem lowerWord_of_ascii {w : List Char} (h : Ascii w) : lowerWord w = w.map Char.toLower := by
  induction w using lowerWord.induct with
  | case1 => rfl
  | case2 c hsigma =>
    rw [beq_iff_eq] at hsigma
    have := h c (by simp)
    rw [hsigma] at this
    exact absurd this (by decide)
  | case3 c hsigma =>
    rw [lowerWord, if_neg hsigma, (regular_of_ascii (h c (by simp))).lower, List.map_singleton]
  | case4 c rest hrest ih =>
    have hstep : lowerWord (c :: rest) = lower c ++ lowerWord rest := by
      rw [lowerWord]
      exact hrest
    rw [hstep, ih fun d hd => h d (List.mem_cons_of_mem c hd), (regular_of_ascii (h c (by simp))).lower,
      List.map_cons, List.singleton_append]

end Text

namespace Naming

open Bindery.Text

/-! Case -/

theorem pascalFrom_ascii (capital : Bool) {s : List Char} (h : Ascii s) :
    Ascii (pascalFrom capital s) ∧ '_' ∉ pascalFrom capital s := by
  induction s generalizing capital with
  | nil => exact ⟨h, by simp [pascalFrom]⟩
  | cons c rest ih =>
    have hc : c.toNat < 128 := h c List.mem_cons_self
    have hrest : Ascii rest := h.of_subset (List.subset_cons_self c rest)
    unfold pascalFrom
    split
    · exact ih true hrest
    · rename_i hmark
      have hne : c ≠ '_' := by
        rintro rfl
        simp at hmark
      obtain ⟨hascii, hunder⟩ := ih false hrest
      split
      · rw [(regular_of_ascii hc).upper, List.singleton_append]
        refine ⟨List.forall_mem_cons.2 ⟨(regular_of_ascii hc).toUpper_lt, hascii⟩, ?_⟩
        exact List.not_mem_cons_of_ne_of_not_mem ((regular_of_ascii hc).toUpper_ne hne).symm hunder
      · refine ⟨List.forall_mem_cons.2 ⟨hc, hascii⟩, ?_⟩
        exact List.not_mem_cons_of_ne_of_not_mem hne.symm hunder

theorem mem_of_mem_splitBy {p : Char → Bool} {s w : List Char} (hw : w ∈ splitBy p s) :
    w ⊆ s := by
  induction s generalizing w with
  | nil => simp_all [splitBy]
  | cons c rest ih =>
    rw [splitBy] at hw
    split at hw
    · rcases List.mem_cons.1 hw with rfl | hw
      · simp
      · exact List.Subset.trans (ih hw) (List.subset_cons_self c rest)
    · split at hw
      · rename_i hsplit
        exact absurd hsplit (splitBy_ne_nil rest)
      · rename_i piece more hsplit
        rw [hsplit] at ih
        rcases List.mem_cons.1 hw with rfl | hw
        · exact List.cons_subset_cons c (ih List.mem_cons_self)
        · exact List.Subset.trans (ih (List.mem_cons_of_mem _ hw)) (List.subset_cons_self c rest)

/-- Words consist of letters and numbers of the text. -/
theorem words_alphanumeric {s w : List Char} (hw : w ∈ words s) :
    ∀ c ∈ w, c ∈ s ∧ isAlphanumeric c = true := by
  obtain ⟨piece, hpiece, hw⟩ := List.mem_flatMap.1 hw
  obtain ⟨-, hmem⟩ := wordsFrom_spec .none [] piece (by simp) w hw
  intro c hc
  have hc : c ∈ piece := (hmem c hc).resolve_left (by simp)
  refine ⟨mem_of_mem_splitBy hpiece hc, ?_⟩
  simpa using splitBy_all piece hpiece c hc

/-- The first word begins as the text does. -/
theorem exists_wordsFrom_eq (m : Mode) (word : List Char) (c : Char) (s : List Char)
    (hm : m ≠ .none → word ≠ []) {d : Char} (hd : (word.reverse ++ [c]).head? = some d) :
    ∃ w ws, wordsFrom m word (c :: s) = (d :: w) :: ws := by
  have hbegin : ∀ t : List Char, (word.reverse ++ c :: t).head? = some d := by
    intro t
    cases hw : word.reverse with
    | nil => simpa [hw] using hd
    | cons x xs => simpa [hw] using hd
  induction s generalizing m word c with
  | nil =>
    obtain ⟨w, hw⟩ := List.head?_eq_some_iff.1 hd
    exact ⟨w, [], by rw [wordsFrom, List.reverse_cons, hw]⟩
  | cons next rest ih =>
    rw [wordsFrom]
    split
    · obtain ⟨w, hw⟩ := List.head?_eq_some_iff.1 hd
      exact ⟨w, _, by rw [List.reverse_cons, hw]⟩
    · split
      · rename_i hupper
        have hne : word ≠ [] := hm fun e => by simp [e] at hupper
        have hhead : word.reverse.head? = some d := by
          rw [← hd, List.head?_append_of_ne_nil _ (by simpa using hne)]
        obtain ⟨w, hw⟩ := List.head?_eq_some_iff.1 hhead
        exact ⟨w, _, by rw [hw]⟩
      · refine ih _ (c :: word) next (by simp) ?_ fun t => ?_
        · simpa using hbegin [next]
        · simpa using hbegin (next :: t)

theorem exists_words_eq {c : Char} {s : List Char} (hc : isAlphanumeric c = true) :
    ∃ w ws, words (c :: s) = (c :: w) :: ws := by
  have hsplit : ∃ piece more, splitBy (fun c => !isAlphanumeric c) (c :: s) =
      (c :: piece) :: more := by
    rw [splitBy, if_neg (by simp [hc])]
    split
    · exact ⟨[], [], rfl⟩
    · rename_i piece more _
      exact ⟨piece, more, rfl⟩
  obtain ⟨piece, more, hsplit⟩ := hsplit
  obtain ⟨w, ws, hw⟩ := exists_wordsFrom_eq .none [] c piece (by simp) rfl
  exact ⟨w, ws ++ more.flatMap (wordsFrom .none []), by simp [words, hsplit, hw]⟩

theorem mem_intercalate {ws : List (List Char)} {c : Char} (h : c ∈ ['_'].intercalate ws) :
    c = '_' ∨ ∃ w ∈ ws, c ∈ w := by
  induction ws with
  | nil => simp at h
  | cons w rest ih =>
    by_cases hnil : rest = []
    · subst hnil
      exact .inr ⟨w, by simpa using h⟩
    · rw [List.intercalate_cons_of_ne_nil hnil] at h
      simp only [List.mem_append, List.mem_singleton] at h
      rcases h with (h | h) | h
      · exact .inr ⟨w, List.mem_cons_self, h⟩
      · exact .inl h
      · exact (ih h).imp_right fun ⟨x, hx, hc⟩ => ⟨x, List.mem_cons_of_mem w hx, hc⟩

/-- Snake case consists of underscores and of letters and numbers. -/
theorem mem_snakeCase {s : String} (h : Ascii s.toList) {c : Char}
    (hc : c ∈ (snakeCase s).toList) :
    c = '_' ∨ c.toNat < 128 ∧ isAlphanumeric c = true := by
  rw [snakeCase, String.toList_ofList] at hc
  rcases mem_intercalate hc with hmark | ⟨l, hl, hcl⟩
  · exact .inl hmark
  obtain ⟨w, hw, rfl⟩ := List.mem_map.1 hl
  have hword := words_alphanumeric hw
  have hascii : Ascii w := fun d hd => (pascalFrom_ascii true h).1 d (hword d hd).1
  rw [lowerWord_of_ascii hascii] at hcl
  obtain ⟨d, hd, rfl⟩ := List.mem_map.1 hcl
  exact .inr ⟨(regular_of_ascii (hascii d hd)).toLower_lt,
    (regular_of_ascii (hascii d hd)).toLower_alphanumeric (hword d hd).2⟩

theorem snakeCase_ascii {s : String} (h : Ascii s.toList) : Ascii (snakeCase s).toList := by
  intro c hc
  rcases mem_snakeCase h hc with rfl | ⟨hascii, -⟩
  · decide
  · exact hascii

theorem pascalCase_ascii {s : String} (h : Ascii s.toList) : Ascii (pascalCase s).toList := by
  rw [pascalCase, String.toList_ofList]
  exact (pascalFrom_ascii true h).1

theorem singularize_ascii {s : String} (h : Ascii s.toList) : Ascii (singularize s).toList := by
  have hdrop : ∀ suf t, dropSuffix? suf s.toList = some t → t ⊆ s.toList := by
    intro suf t ht
    unfold dropSuffix? at ht
    split at ht
    · exact Option.some.inj ht ▸ List.take_subset _ _
    · cases ht
  unfold singularize
  dsimp only
  split
  · rename_i c stem hstem
    rw [String.toList_ofList]
    refine h.of_subset ?_
    rcases Option.or_eq_some_iff.1 hstem with hes | ⟨-, hs⟩
    · exact hdrop _ _ hes
    · exact hdrop _ _ hs
  · exact h

/-! Words -/

theorem exists_letter_of_isIdentifier {s : String} (hid : isIdentifier s = true) :
    ∃ c rest, s.toList = c :: rest ∧ (c = '_' ∨ isAlphabetic c = true) ∧
      ∀ d ∈ rest, d = '_' ∨ isAlphanumeric d = true := by
  unfold isIdentifier at hid
  split at hid
  · cases hid
  · rename_i c rest hs
    simp only [Bool.and_eq_true, Bool.or_eq_true, beq_iff_eq, List.all_eq_true] at hid
    exact ⟨c, rest, hs, hid.1.1, hid.2⟩

theorem continuesIdentifier_of_isIdentifier {s : String} (h : Ascii s.toList)
    (hid : isIdentifier s = true) : ∀ c ∈ s.toList, continuesIdentifier c = true := by
  obtain ⟨c, rest, hs, hstart, hrest⟩ := exists_letter_of_isIdentifier hid
  have hall : ∀ d ∈ s.toList, d = '_' ∨ isAlphanumeric d = true := by
    intro d hd
    rcases List.mem_cons.1 (hs ▸ hd) with rfl | hd
    · exact hstart.imp_right fun h => by rw [isAlphanumeric, h, Bool.true_or]
    · exact hrest d hd
  intro d hd
  rcases hall d hd with rfl | hnumeric
  · exact (regular_of_ascii (by decide)).continues (.inr rfl)
  · exact (regular_of_ascii (h d hd)).continues (.inl hnumeric)

theorem isWord_of_isIdentifier {s : String} (h : Ascii s.toList) (hid : isIdentifier s = true) :
    isWord s.toList = true := by
  have hcontinue := continuesIdentifier_of_isIdentifier h hid
  obtain ⟨c, rest, hs, hstart, -⟩ := exists_letter_of_isIdentifier hid
  rw [hs] at h hcontinue ⊢
  rw [isWord, Bool.and_eq_true, List.all_eq_true]
  refine ⟨?_, fun d hd => hcontinue d (List.mem_cons_of_mem c hd)⟩
  rcases hstart with rfl | hstart
  · rfl
  · exact (regular_of_ascii (h c List.mem_cons_self)).starts hstart

/-- The snake case of a text that begins with a letter does so too. -/
theorem exists_letter_snakeCase {s : String} {c : Char} {rest : List Char} (h : Ascii s.toList)
    (hs : s.toList = c :: rest) (halpha : isAlphabetic c = true) :
    ∃ l rest, (snakeCase s).toList = l :: rest ∧ l.toNat < 128 ∧ isAlphabetic l = true := by
  have hascii : Ascii (pascalFrom true s.toList) := (pascalFrom_ascii true h).1
  have hc : c.toNat < 128 := h c (hs ▸ List.mem_cons_self)
  have hmark : ¬ (c == '.' || c == '_') = true := by
    rw [Bool.or_eq_true, beq_iff_eq, beq_iff_eq, not_or]
    exact (regular_of_ascii hc).no_mark halpha
  have hpascal : pascalFrom true s.toList = c.toUpper :: pascalFrom false rest := by
    rw [hs, pascalFrom, if_neg hmark, if_pos rfl, (regular_of_ascii hc).upper, List.singleton_append]
  have hupper : isAlphabetic c.toUpper = true := (regular_of_ascii hc).toUpper_alphabetic halpha
  obtain ⟨w, ws, hwords⟩ := exists_words_eq (s := pascalFrom false rest)
    (by rw [isAlphanumeric, hupper, Bool.true_or] : isAlphanumeric c.toUpper = true)
  have hword : Ascii (c.toUpper :: w) := by
    intro d hd
    have hmem : c.toUpper :: w ∈ words (pascalFrom true s.toList) := by
      rw [hpascal, hwords]
      exact List.mem_cons_self
    exact hascii d (words_alphanumeric hmem d hd).1
  have hfirst : lowerWord (c.toUpper :: w) = c.toUpper.toLower :: w.map Char.toLower := by
    rw [lowerWord_of_ascii hword, List.map_cons]
  have hregular : Regular c.toUpper := regular_of_ascii (regular_of_ascii hc).toUpper_lt
  have hlower : c.toUpper.toLower.toNat < 128 ∧ isAlphabetic c.toUpper.toLower = true :=
    ⟨hregular.toLower_lt, hregular.toLower_alphabetic hupper⟩
  rw [snakeCase, String.toList_ofList, hpascal, hwords, List.map_cons, hfirst]
  by_cases hnil : ws.map lowerWord = []
  · exact ⟨_, _, by rw [hnil, List.intercalate_singleton], hlower⟩
  · exact ⟨_, _, by rw [List.intercalate_cons_of_ne_nil hnil, List.cons_append, List.cons_append],
      hlower⟩

/-- The snake case of a Pascal case that is an identifier is a word. -/
theorem isWord_snakeCase {s : String} (h : Ascii s.toList)
    (hid : isIdentifier (pascalCase s) = true) :
    isWord (snakeCase (pascalCase s)).toList = true := by
  have hascii : Ascii (pascalCase s).toList := pascalCase_ascii h
  have hunder : '_' ∉ (pascalCase s).toList := by
    rw [pascalCase, String.toList_ofList]
    exact (pascalFrom_ascii true h).2
  have hall : ∀ c ∈ (snakeCase (pascalCase s)).toList, continuesIdentifier c = true := by
    intro c hc
    rcases mem_snakeCase hascii hc with rfl | ⟨hc, hnumeric⟩
    · exact (regular_of_ascii (by decide)).continues (.inr rfl)
    · exact (regular_of_ascii hc).continues (.inl hnumeric)
  have hstart : ∃ l rest, (snakeCase (pascalCase s)).toList = l :: rest ∧ l.toNat < 128 ∧
      isAlphabetic l = true := by
    obtain ⟨c, rest, hs, hletter, -⟩ := exists_letter_of_isIdentifier hid
    have hne : c ≠ '_' := fun e => hunder (hs ▸ e ▸ List.mem_cons_self)
    exact exists_letter_snakeCase hascii hs (hletter.resolve_left hne)
  obtain ⟨l, rest, hl, hascii, halpha⟩ := hstart
  rw [hl] at hall ⊢
  rw [isWord, Bool.and_eq_true, List.all_eq_true]
  exact ⟨(regular_of_ascii hascii).starts halpha, fun d hd => hall d (List.mem_cons_of_mem l hd)⟩

end Naming

end Bindery
