import Bindery.Proofs.Source.Literals

/-!
# Tokens at the start of a text

How words, punctuation, literals and groups are read off a text, given what follows them.
-/
namespace Bindery.Source

open Bindery.Text

namespace Lexer

variable {c : Char} {s w rest : List Char} {outer : List (Delimiter × List Token)}
  {done : List Token}

/-! Characters -/

/-- What holds of the numbers of some intervals holds of their characters. -/
theorem forall_of_has {r : Ranges} {p : Nat → Bool}
    (h : ∀ q ∈ r, ∀ n ∈ List.range' q.1 (q.2 + 1 - q.1), p n = true) {n : Nat} (hn : r.has n = true) :
    p n = true := by
  obtain ⟨q, hq, hlow, hhigh⟩ := Ranges.exists_of_has hn
  exact h q hq n (List.mem_range'_1.2 ⟨hlow, by omega⟩)

theorem not_startsIdentifier_of_isSpace (h : isSpace c = true) : startsIdentifier c = false := by
  have hblank : isBlank c = true → startsIdentifier c = false := fun h => by
    have hnot := forall_of_has (p := fun n => n != 0x5f && !identifierStart.has n)
      (by decide +kernel) h
    simp only [Bool.and_eq_true, bne_iff_ne, Bool.not_eq_true'] at hnot
    have hne : c ≠ '_' := by
      rintro rfl
      exact hnot.1 rfl
    rw [startsIdentifier, hnot.2, beq_eq_false_iff_ne.2 hne]
    rfl
  have hmark : ∀ n ∈ [0x200e, 0x200f], c.toNat = n → startsIdentifier c = false := by
    intro n hn heq
    have hne : c ≠ '_' := by
      rintro rfl
      rw [← heq] at hn
      exact absurd hn (by decide)
    have hall : ∀ n ∈ [0x200e, 0x200f], identifierStart.has n = false := by decide +kernel
    rw [startsIdentifier, heq, hall n hn, beq_eq_false_iff_ne.2 hne]
    rfl
  rw [isSpace, Bool.or_eq_true, Bool.or_eq_true, beq_iff_eq, beq_iff_eq] at h
  rcases h with (h | h) | h
  · exact hblank h
  · exact hmark _ (by simp) h
  · exact hmark _ (by simp) h

/-- A mark that begins no word. -/
theorem ne_of_startsIdentifier (h : startsIdentifier c = true) {d : Char}
    (hd : startsIdentifier d = false) : c ≠ d := by
  rintro rfl
  rw [h] at hd
  cases hd

theorem not_isPunct_of_startsIdentifier (h : startsIdentifier c = true) : isPunct c = false := by
  have hall : ("~!@#$%^&*-=+|;:,<.>/?'".toList.all fun d => !startsIdentifier d) = true := by
    decide +kernel
  rw [isPunct, List.contains_eq_mem, decide_eq_false_iff_not]
  intro hmem
  have hnot := List.all_eq_true.1 hall c hmem
  rw [h] at hnot
  cases hnot

theorem not_isDigit_of_startsIdentifier (h : startsIdentifier c = true) : isDigit c = false := by
  refine Bool.eq_false_iff.2 fun hdigit => ?_
  have hrange : c.toNat ∈ List.range' 48 10 := by
    simp only [isDigit, Bool.and_eq_true, decide_eq_true_eq, Char.le_def,
      UInt32.le_iff_toNat_le] at hdigit
    exact List.mem_range'_1.2 ⟨hdigit.1, Nat.lt_succ_of_le hdigit.2⟩
  have hall : ∀ n ∈ List.range' 48 10, startsIdentifier (Char.ofNat n) = false := by decide +kernel
  have hnot := hall _ hrange
  rw [Char.ofNat_toNat, h] at hnot
  cases hnot

theorem ne_slash_of_startsIdentifier (h : startsIdentifier c = true) : c ≠ '/' :=
  ne_of_startsIdentifier h (by decide)

/-! Steps -/

theorem skipOnce_eq_none (hspace : isSpace c = false) (hslash : c ≠ '/') :
    skipOnce (c :: s) = none := by
  simp [skipOnce, startsWith, hspace, hslash.symm]

theorem docComment_eq_none (hslash : c ≠ '/') : docComment (c :: s) = none := by
  simp [docComment_eq, docContent, startsWith, hslash.symm]

theorem readOn_treeTurn (hspace : isSpace c = false) (hslash : c ≠ '/') :
    readOn outer done (c :: s) =
      match treeTurn outer done (c :: s) with
      | .stop result => result
      | .go outer done rest => readOn outer done rest := by
  have hturn : turn outer done (c :: s) = treeTurn outer done (c :: s) := by
    rw [turn, skipSpace_eq, skipOnce_eq_none hspace hslash, Option.elim_none,
      docComment_eq_none hslash]
  have hread := readOn_eq outer done (c :: s)
  rw [hturn] at hread
  exact hread

theorem readOn_space (h : isSpace c = true) : readOn outer done (c :: s) = readOn outer done s := by
  refine readOn_skip ?_
  have hslash : c ≠ '/' := by
    rintro rfl
    exact absurd h (by decide)
  simp [skipOnce, startsWith, h, hslash.symm]

theorem readOn_nil : readOn [] done [] = some done.reverse := rfl

theorem readOn_open {d : Delimiter} (hspace : isSpace c = false) (hslash : c ≠ '/')
    (herror : startsWith errorLiteral (c :: s) = false) (h : opening c = some d) :
    readOn outer done (c :: s) = readOn ((d, done) :: outer) [] s := by
  rw [readOn_treeTurn hspace hslash, treeTurn.eq_def]
  simp [herror, h]

theorem readOn_close {d : Delimiter} {before : List Token} (hspace : isSpace c = false)
    (hslash : c ≠ '/') (hopen : opening c = none) (h : closing c = some d) :
    readOn ((d, before) :: outer) done (c :: s) =
      readOn outer (.group d done.reverse :: before) s := by
  rw [readOn_treeTurn hspace hslash, treeTurn.eq_def]
  simp [hopen, h]

theorem readOn_leaf {t : Token} (hspace : isSpace c = false) (hslash : c ≠ '/')
    (hopen : opening c = none) (hclose : closing c = none) (h : leaf (c :: s) = some (t, rest)) :
    readOn outer done (c :: s) = readOn outer (t :: done) rest := by
  rw [readOn_treeTurn hspace hslash, treeTurn.eq_def]
  simp [hopen, hclose, h]

/-! What is no literal -/

theorem integer_eq_none (h : isDigit c = false) : integer (c :: s) = none := by
  have hzero : c ≠ '0' := by
    rintro rfl
    cases h
  have hdigits : digitsIn 10 true (c :: s) = none := by
    rw [digitsIn]
    split
    · rfl
    · split
      · rename_i d hd
        have hge : ¬ d < 10 := by
          rw [isDigit] at h
          rw [hexValue?, if_neg (by rw [h]; exact Bool.false_ne_true)] at hd
          split_ifs at hd <;> cases hd <;> omega
        rw [if_neg hge, h]
        rfl
      · rfl
  simp [integer, startsWith, hzero.symm, hdigits]

theorem float_eq_none (h : isDigit c = false) : float (c :: s) = none := by
  simp [float, floatDigits, h]

theorem rawText_eq_none {q : Quoting} (h : ∀ c ∈ s.head?, c ≠ '"' ∧ c ≠ '#') :
    rawText q s = none := by
  cases s with
  | nil => rfl
  | cons c s =>
    obtain ⟨hquote, hhash⟩ := h c (by simp)
    rw [rawText, List.dropWhile_cons_of_neg (by simpa using hhash)]
    split
    · rename_i heq
      exact absurd (List.cons.inj heq).1 hquote
    · rfl

/-! Punctuation -/

theorem plain_of_isPunct (h : isPunct c = true) : isSpace c = false ∧ isDigit c = false ∧
    opening c = none ∧ closing c = none ∧ c ∉ ['"', 'r', 'b', 'c'] := by
  have hall : ("~!@#$%^&*-=+|;:,<.>/?'".toList.all fun c => !isSpace c && !isDigit c &&
      (opening c).isNone && (closing c).isNone && !(List.contains ['"', 'r', 'b', 'c'] c)) = true := by
    decide +kernel
  have hplain := List.all_eq_true.1 hall c (List.contains_iff_mem.1 h)
  simpa [and_assoc] using hplain

theorem literal_eq_none_of_isPunct (h : isPunct c = true) (hquote : c ≠ '\'') :
    literal (c :: s) = none := by
  obtain ⟨-, hdigit, -, -, hne⟩ := plain_of_isPunct h
  simp only [List.mem_cons, not_or] at hne
  obtain ⟨htext, hr, hb, hc, -⟩ := hne
  simp [literal, text, byteText, nullText, byte, character, lit, htext, hr, hb, hc, Ne.symm hb,
    hquote.symm, float_eq_none hdigit, integer_eq_none hdigit]

/-- Punctuation other than a slash or an apostrophe starts nothing else. -/
structure Mark (c : Char) : Prop where
  punct : isPunct c = true
  no_slash : c ≠ '/'
  no_quote : c ≠ '\''

theorem readOn_mark (h : Mark c) :
    readOn outer done (c :: s) = readOn outer (.punct c (startsPunct s) :: done) s := by
  obtain ⟨hspace, -, hopen, hclose, -⟩ := plain_of_isPunct h.punct
  have hpunct : Lexer.punct (c :: s) = some (.punct c (startsPunct s), s) := by
    have hstarts : startsPunct (c :: s) = true := by
      simp [startsPunct, startsWith, List.isPrefixOf, h.no_slash.symm, h.punct]
    rw [Lexer.punct.eq_def, hstarts]
    dsimp only
    rw [if_neg (by simp)]
    split
    · rename_i heq
      cases heq
    · rename_i heq
      exact absurd (List.cons.inj heq).1 h.no_quote
    · rename_i heq
      obtain ⟨rfl, rfl⟩ := List.cons.inj heq
      rfl
  refine readOn_leaf hspace h.no_slash hopen hclose ?_
  rw [leaf, literal_eq_none_of_isPunct h.punct h.no_quote, hpunct]
  rfl

/-! Words -/

/-- What may follow a word without being part of it or making it the start of a literal. -/
def EndsWord (rest : List Char) : Prop :=
  ∀ c ∈ rest.head?, continuesIdentifier c = false ∧ c ≠ '"' ∧ c ≠ '\'' ∧ c ≠ '#'

/-- What may follow the first character of a word. -/
def InWord (s : List Char) : Prop :=
  ∃ w rest, s = w ++ rest ∧ (∀ c ∈ w, continuesIdentifier c = true) ∧ EndsWord rest

theorem InWord.head (h : InWord s) : ∀ c ∈ s.head?, c ≠ '"' ∧ c ≠ '\'' ∧ c ≠ '#' := by
  obtain ⟨w, rest, rfl, hw, hrest⟩ := h
  cases w with
  | nil => exact fun c hc => (hrest c hc).2
  | cons d w =>
    intro c hc
    obtain rfl : d = c := by simpa using hc
    have hd := hw d (by simp)
    refine ⟨?_, ?_, ?_⟩ <;> (rintro rfl; exact absurd hd (by decide))

theorem InWord.tail (h : InWord (c :: s)) (hc : continuesIdentifier c = true) : InWord s := by
  obtain ⟨w, rest, heq, hw, hrest⟩ := h
  cases w with
  | nil =>
    have hend := hrest c (by simp [← show c :: s = rest from heq])
    rw [hc] at hend
    cases hend.1
  | cons d w =>
    obtain ⟨rfl, rfl⟩ := List.cons.inj heq
    exact ⟨w, rest, rfl, fun c hc => hw c (List.mem_cons_of_mem _ hc), hrest⟩

theorem word_append (h : isWord w = true) (hrest : EndsWord rest) :
    word (w ++ rest) = some (w, rest) := by
  cases w with
  | nil => cases h
  | cons c w =>
    obtain ⟨hstart, hall⟩ := Bool.and_eq_true_iff.1 h
    have hw := List.all_eq_true.1 hall
    have hnil : ∀ {s : List Char}, (∀ c ∈ s.head?, continuesIdentifier c = false) →
        s.takeWhile continuesIdentifier = [] ∧ s.dropWhile continuesIdentifier = s := by
      intro s hs
      cases s with
      | nil => exact ⟨rfl, rfl⟩
      | cons d s => simp [hs d (by simp)]
    have hends := hnil fun c hc => (hrest c hc).1
    rw [List.cons_append, word, if_pos hstart, List.takeWhile_append_of_pos hw,
      List.dropWhile_append_of_pos hw, hends.1, hends.2, List.append_nil]

/-- A word starts no literal. -/
theorem literal_eq_none_of_inWord (hc : startsIdentifier c = true) (h : InWord s) :
    literal (c :: s) = none := by
  have hdigit := not_isDigit_of_startsIdentifier hc
  have hne : ∀ {d : Char}, startsIdentifier d = false → c ≠ d := ne_of_startsIdentifier hc
  have hraw : ∀ q, rawText q s = none := fun q => rawText_eq_none fun d hd =>
    ⟨(h.head d hd).1, (h.head d hd).2.2⟩
  have htext : text (c :: s) = none := by
    unfold text
    split
    · rename_i heq
      exact absurd (List.cons.inj heq).1 (hne (by decide))
    · rename_i heq
      rw [← (List.cons.inj heq).2]
      exact hraw _
    · rfl
  have hmarked : ∀ {q : Quoting} {d : Char} {t : List Char}, s = d :: t → d = 'r' →
      rawText q t = none := by
    rintro q d t rfl rfl
    exact rawText_eq_none fun e he =>
      ⟨((h.tail (by decide)).head e he).1, ((h.tail (by decide)).head e he).2.2⟩
  have hquoted : ∀ {t : List Char}, s ≠ '"' :: t := by
    rintro t rfl
    exact (h.head '"' (by simp)).1 rfl
  have hbyte : byteText (c :: s) = none := by
    unfold byteText
    split
    · rename_i heq
      exact absurd (List.cons.inj heq).2 hquoted
    · rename_i heq
      rw [hmarked (List.cons.inj heq).2 rfl]
      rfl
    · rfl
  have hnull : nullText (c :: s) = none := by
    unfold nullText
    split
    · rename_i heq
      exact absurd (List.cons.inj heq).2 hquoted
    · rename_i heq
      rw [hmarked (List.cons.inj heq).2 rfl]
      rfl
    · rfl
  have hchar : byte (c :: s) = none ∧ character (c :: s) = none := by
    have hquote : c ≠ '\'' := hne (by decide)
    refine ⟨?_, by simp [character, lit, hquote.symm]⟩
    cases s with
    | nil => simp [byte, lit]
    | cons d t =>
      have hd := (h.head d (by simp)).2.1
      simp [byte, lit, hd.symm]
  simp [literal, htext, hbyte, hnull, hchar, float_eq_none hdigit, integer_eq_none hdigit]

theorem inWord_of_isWord (h : isWord w = true) (hrest : EndsWord rest) :
    ∃ c s, w ++ rest = c :: s ∧ startsIdentifier c = true ∧ InWord s := by
  cases w with
  | nil => cases h
  | cons c w =>
    obtain ⟨hstart, hall⟩ := Bool.and_eq_true_iff.1 h
    exact ⟨c, w ++ rest, rfl, hstart, w, rest, rfl, List.all_eq_true.1 hall, hrest⟩

theorem punct_eq_none (h : isPunct c = false) : punct (c :: s) = none := by
  simp [punct, startsPunct, h]

theorem identAny_word (h : isWord w = true) (hrest : EndsWord rest) :
    identAny (w ++ rest) = some (⟨String.ofList w, false⟩, rest) := by
  obtain ⟨c, s, heq, hstart, hin⟩ := inWord_of_isWord h hrest
  have hraw : startsWith "r#" (w ++ rest) = false := by
    rw [heq]
    cases s with
    | nil => simp [startsWith, List.isPrefixOf]
    | cons d s =>
      have hd := (hin.head d (by simp)).2.2
      simp [startsWith, List.isPrefixOf, hd.symm]
  rw [identAny, hraw, if_neg (by simp), word_append h hrest]
  rfl

theorem leaf_word (h : isWord w = true) (hrest : EndsWord rest) :
    leaf (w ++ rest) = some (.ident ⟨String.ofList w, false⟩, rest) := by
  obtain ⟨c, s, heq, hstart, hin⟩ := inWord_of_isWord h hrest
  have hident : ident (w ++ rest) = identAny (w ++ rest) := by
    have hnone : (["r\"", "r#\"", "r##", "b\"", "b'", "br\"", "br#", "c\"", "cr\"", "cr#"].any
        (startsWith · (c :: s))) = false := by
      cases s with
      | nil => simp [startsWith, List.isPrefixOf]
      | cons d s =>
        obtain ⟨hquote, happ, hhash⟩ := hin.head d (by simp)
        by_cases hr : d = 'r'
        · subst hr
          cases s with
          | nil => simp [startsWith, List.isPrefixOf]
          | cons e s =>
            obtain ⟨hquote', -, hhash'⟩ := (hin.tail (by decide)).head e (by simp)
            simp [startsWith, List.isPrefixOf, hquote'.symm, hhash'.symm]
        · simp [startsWith, List.isPrefixOf, hquote.symm, happ.symm, hhash.symm, Ne.symm hr]
    rw [heq, ident, hnone, if_neg (by simp)]
  rw [leaf, hident, identAny_word h hrest, heq, literal_eq_none_of_inWord hstart hin,
    punct_eq_none (not_isPunct_of_startsIdentifier hstart)]
  rfl

theorem leaf_raw (h : isWord w = true) (hraw : String.ofList w ∉ neverRaw) (hrest : EndsWord rest) :
    leaf ('r' :: '#' :: (w ++ rest)) = some (.ident ⟨String.ofList w, true⟩, rest) := by
  obtain ⟨c, s, heq, hstart, hin⟩ := inWord_of_isWord h hrest
  have hquote : c ≠ '"' := ne_of_startsIdentifier hstart (by decide)
  have hhash : c ≠ '#' := ne_of_startsIdentifier hstart (by decide)
  have hword := word_append h hrest
  rw [heq] at hword ⊢
  have hliteral : literal ('r' :: '#' :: c :: s) = none := by
    have hrawText : rawText .text ('#' :: c :: s) = none := by
      rw [rawText, List.dropWhile_cons_of_pos (by simp), List.dropWhile_cons_of_neg (by simpa using hhash)]
      split
      · rename_i heq
        exact absurd (List.cons.inj heq).1 hquote
      · rfl
    simp [literal, text, hrawText, byteText, nullText, byte, character, lit,
      float_eq_none (c := 'r') (by decide), integer_eq_none (c := 'r') (by decide)]
  have hident : ident ('r' :: '#' :: c :: s) = some (⟨String.ofList w, true⟩, rest) := by
    have hnone : (["r\"", "r#\"", "r##", "b\"", "b'", "br\"", "br#", "c\"", "cr\"", "cr#"].any
        (startsWith · ('r' :: '#' :: c :: s))) = false := by
      simp [startsWith, List.isPrefixOf, hquote.symm, hhash.symm]
    rw [ident, hnone, if_neg (by simp), identAny, if_pos (by simp [startsWith, List.isPrefixOf])]
    simp [hword, hraw]
  rw [leaf, hliteral, punct_eq_none (by decide), hident]
  rfl

/-- An identifier is read as itself, up to what ends it. -/
theorem readOn_ident {i : Ident} (h : isWord i.word.toList = true)
    (hraw : i.raw = true → i.word ∉ neverRaw) (hrest : EndsWord rest) :
    readOn outer done (i.text.toList ++ rest) = readOn outer (.ident i :: done) rest := by
  have hleaf : leaf (i.text.toList ++ rest) = some (.ident i, rest) := by
    obtain ⟨word, raw⟩ := i
    cases raw with
    | false => simpa [Ident.text] using leaf_word h hrest
    | true =>
      have hword := hraw rfl
      rw [← String.ofList_toList (s := word)] at hword
      simpa [Ident.text] using leaf_raw h hword hrest
  have hstart : ∃ c s, i.text.toList ++ rest = c :: s ∧ startsIdentifier c = true := by
    obtain ⟨word, raw⟩ := i
    cases raw with
    | false =>
      obtain ⟨c, s, heq, hstart, -⟩ := inWord_of_isWord h hrest
      exact ⟨c, s, by simpa [Ident.text] using heq, hstart⟩
    | true => exact ⟨'r', '#' :: (word.toList ++ rest), by simp [Ident.text], by decide⟩
  obtain ⟨c, s, heq, hstart⟩ := hstart
  rw [heq] at hleaf ⊢
  have hne : ∀ {d : Char}, startsIdentifier d = false → c ≠ d := ne_of_startsIdentifier hstart
  have hspace : isSpace c = false := Bool.eq_false_iff.2 fun hspace => by
    rw [not_startsIdentifier_of_isSpace hspace] at hstart
    cases hstart
  have hopen : opening c = none ∧ closing c = none := by
    have hparen : c ≠ '(' ∧ c ≠ ')' := ⟨hne (by decide), hne (by decide)⟩
    have hbracket : c ≠ '[' ∧ c ≠ ']' := ⟨hne (by decide), hne (by decide)⟩
    have hbrace : c ≠ '\x7b' ∧ c ≠ '\x7d' := ⟨hne (by decide), hne (by decide)⟩
    simp [opening, closing, hparen, hbracket, hbrace]
  exact readOn_leaf hspace (ne_slash_of_startsIdentifier hstart) hopen.1 hopen.2 hleaf

theorem readOn_word {w : String} (h : isWord w.toList = true) (hrest : EndsWord rest) :
    readOn outer done (w.toList ++ rest) = readOn outer (.word w :: done) rest :=
  readOn_ident (i := ⟨w, false⟩) h (fun h => by cases h) hrest

/-! Literals -/

theorem leaf_quote (text : String) (hrest : ∀ c ∈ rest.head?, startsIdentifier c = false) :
    leaf ((quote text).toList ++ rest) = some (.literal (quote text), rest) := by
  have hsuffix : suffix rest = rest := by
    cases rest with
    | nil => rfl
    | cons c rest => simp [suffix, word, hrest c (by simp)]
  have hliteral : literal ((quote text).toList ++ rest) = some rest := by
    simp [literal, text_quote, hsuffix]
  rw [leaf, hliteral]
  simp

theorem readOn_quote (text : String) (hrest : ∀ c ∈ rest.head?, startsIdentifier c = false) :
    readOn outer done ((quote text).toList ++ rest) =
      readOn outer (.literal (quote text) :: done) rest := by
  have hleaf := leaf_quote text hrest
  rw [toList_quote, List.cons_append] at hleaf ⊢
  exact readOn_leaf (by decide) (by decide) (by decide) (by decide) hleaf

end Lexer

end Bindery.Source
