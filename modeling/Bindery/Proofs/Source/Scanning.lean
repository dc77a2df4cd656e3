import Bindery.Source.Lexer
import Mathlib

/-!
# Reading always goes on

Whatever is read of a text is not empty, and what is left is shorter. So the number of steps that
reading may take is never used up.
-/
namespace Bindery.Source

namespace Lexer

open Bindery.Text

variable {s rest : List Char}

/-- A refusal in front of further steps. -/
theorem refuse_eq_some_iff {β : Type} {p : Prop} [Decidable p] {k : Unit → Option β} {b : β} :
    (if p then none >>= k else k ()) = some b ↔ ¬p ∧ k () = some b := by
  split_ifs with hp <;> simp [hp]

/-! Spaces and comments -/

theorem lit_length {w : String} (hw : w.length ≠ 0) (h : lit w s = some rest) :
    rest.length < s.length := by
  unfold lit at h
  split at h
  · rename_i hprefix
    have hle := (List.isPrefixOf_iff_prefix.1 hprefix).length_le
    rw [String.length_toList] at hle
    rw [← Option.some.inj h, List.length_drop]
    omega
  · cases h

theorem commentEnd_length {depth : Nat} (h : commentEnd depth s = some rest) :
    rest.length < s.length := by
  fun_induction commentEnd depth s with
  | case1 => cases h
  | case2 depth s ih => exact (ih h).trans (by simp)
  | case3 depth s hdepth =>
    cases h
    simp
  | case4 depth s hdepth ih => exact (ih h).trans (by simp)
  | case5 depth c s _ _ ih => exact (ih h).trans (by simp)

theorem blockComment_length (h : blockComment s = some rest) : rest.length < s.length := by
  unfold blockComment at h
  split at h
  · exact (commentEnd_length h).trans (by simp)
  · cases h

theorem restOfLine_length (s : List Char) : (restOfLine s).2.length ≤ s.length := by
  fun_induction restOfLine s with
  | case1 => simp
  | case2 => simp
  | case3 => simp
  | case4 c s _ _ line after h ih =>
    rw [h] at ih
    exact ih.trans (by simp)

/-- A line comment is not empty. -/
theorem restOfLine_length_of_startsWith (h : startsWith "//" s = true) :
    (restOfLine s).2.length < s.length := by
  obtain ⟨t, rfl⟩ := List.isPrefixOf_iff_prefix.1 h
  have hline := restOfLine_length t
  have hafter : (restOfLine ("//".toList ++ t)).2 = (restOfLine t).2 := rfl
  rw [hafter, List.length_append]
  exact Nat.lt_of_le_of_lt hline (by simp)

/-- What is left after one blank or plain comment. -/
def skipOnce (s : List Char) : Option (List Char) :=
  if startsWith "//" s && (!startsWith "///" s || startsWith "////" s) && !startsWith "//!" s then
    some (restOfLine s).2
  else if startsWith "/**/" s then some (s.drop 4)
  else if startsWith "/*" s && (!startsWith "/**" s || startsWith "/***" s)
      && !startsWith "/*!" s then blockComment s
  else match s with
    | c :: rest => if isSpace c then some rest else none
    | [] => none

theorem skipSpaceFrom_succ (n : Nat) (s : List Char) :
    skipSpaceFrom (n + 1) s = (skipOnce s).elim s (skipSpaceFrom n) := by
  rw [skipSpaceFrom.eq_def, skipOnce.eq_def]
  dsimp only
  split_ifs
  · rfl
  · rfl
  · cases blockComment s <;> rfl
  · cases s with
    | nil => rfl
    | cons c rest =>
      dsimp only
      split_ifs <;> rfl

theorem skipOnce_length (h : skipOnce s = some rest) : rest.length < s.length := by
  unfold skipOnce at h
  split at h
  · rename_i hline
    simp only [Bool.and_eq_true] at hline
    rw [← Option.some.inj h]
    exact restOfLine_length_of_startsWith hline.1.1
  · split at h
    · rename_i hempty
      have hle := (List.isPrefixOf_iff_prefix.1 hempty).length_le
      rw [← Option.some.inj h, List.length_drop]
      exact Nat.sub_lt (Nat.lt_of_lt_of_le (by decide) hle) (by decide)
    · split at h
      · exact blockComment_length h
      · split at h
        · split at h
          · rw [← Option.some.inj h]
            simp
          · cases h
        · cases h

/-- Skipping does not depend on the number of steps. -/
theorem skipSpaceFrom_eq {n : Nat} (h : s.length ≤ n) : skipSpaceFrom n s = skipSpace s := by
  have hsame : ∀ {n m : Nat} {s : List Char}, s.length ≤ n → s.length ≤ m →
      skipSpaceFrom n s = skipSpaceFrom m s := by
    intro n
    induction n with
    | zero =>
      intro m s hn _
      obtain rfl := List.length_eq_zero_iff.1 (Nat.le_zero.1 hn)
      cases m <;> rfl
    | succ n ih =>
      intro m s hn hm
      cases m with
      | zero =>
        obtain rfl := List.length_eq_zero_iff.1 (Nat.le_zero.1 hm)
        rfl
      | succ m =>
        rw [skipSpaceFrom_succ, skipSpaceFrom_succ]
        cases hskip : skipOnce s with
        | none => rfl
        | some rest =>
          have hlt := skipOnce_length hskip
          exact ih (by omega) (by omega)
  exact hsame h le_rfl

theorem skipSpace_eq (s : List Char) : skipSpace s = (skipOnce s).elim s skipSpace := by
  cases hs : s with
  | nil => rfl
  | cons c t =>
    rw [skipSpace, List.length_cons, skipSpaceFrom_succ]
    cases hskip : skipOnce (c :: t) with
    | none => rfl
    | some rest =>
      have hlt := skipOnce_length hskip
      exact skipSpaceFrom_eq (by simp at hlt; omega)

theorem skipSpace_length (s : List Char) : (skipSpace s).length ≤ s.length := by
  have hle : ∀ (n : Nat) (s : List Char), (skipSpaceFrom n s).length ≤ s.length := by
    intro n
    induction n with
    | zero => exact fun s => le_rfl
    | succ n ih =>
      intro s
      rw [skipSpaceFrom_succ]
      cases hskip : skipOnce s with
      | none => exact le_rfl
      | some rest => exact (ih rest).trans (skipOnce_length hskip).le
  exact hle _ s

/-! Words and literals -/

theorem word_length {w : List Char} (h : word s = some (w, rest)) : rest.length < s.length := by
  cases s with
  | nil => cases h
  | cons c t =>
    rw [word] at h
    split at h
    · obtain ⟨-, rfl⟩ := Prod.mk.inj (Option.some.inj h)
      exact Nat.lt_succ_of_le (List.length_dropWhile_le _ t)
    · cases h

theorem identAny_length {i : Ident} (h : identAny s = some (i, rest)) :
    rest.length < s.length := by
  unfold identAny at h
  split at h
  · obtain ⟨⟨w, t⟩, hw, h⟩ := Option.bind_eq_some_iff.1 h
    dsimp only at h
    split at h
    · cases h
    · obtain ⟨-, rfl⟩ := Prod.mk.inj (Option.some.inj h)
      exact (word_length hw).trans_le (by simp)
  · obtain ⟨⟨w, t⟩, hw, h⟩ := Option.bind_eq_some_iff.1 h
    obtain ⟨-, rfl⟩ := Prod.mk.inj (Option.some.inj h)
    exact word_length hw

theorem ident_length {i : Ident} (h : ident s = some (i, rest)) : rest.length < s.length := by
  unfold ident at h
  split at h
  · cases h
  · exact identAny_length h

theorem suffix_length (s : List Char) : (suffix s).length ≤ s.length := by
  unfold suffix
  split
  · rename_i h
    exact (word_length h).le
  · exact le_rfl

theorem codePoint_digits_length {value count : Nat} {c : Char}
    (h : codePoint.digits value count s = some (c, rest)) : rest.length < s.length := by
  induction s generalizing value count with
  | nil => cases h
  | cons d t ih =>
    rw [codePoint.digits] at h
    split at h
    · split at h
      · cases h
      · exact (ih h).trans (by simp)
    · split_ifs at h
      · exact (ih h).trans (by simp)
      · obtain ⟨-, rfl⟩ := Prod.mk.inj (Option.some.inj h)
        simp

theorem codePoint_length {c : Char} (h : codePoint s = some (c, rest)) : rest.length < s.length := by
  unfold codePoint at h
  split at h
  · exact (codePoint_digits_length h).trans (by simp)
  · cases h

theorem escape_length {q : Quoting} {v : Nat} (h : escape q s = some (v, rest)) :
    rest.length < s.length := by
  unfold escape at h
  split at h
  case h_7 =>
    split_ifs at h
    cases h
    simp
  case h_8 =>
    simp only [Option.bind_eq_bind, Option.bind_eq_some_iff] at h
    obtain ⟨high, -, low, -, h⟩ := h
    split_ifs at h
    cases h
    simp
    omega
  case h_9 =>
    dsimp only at h
    rw [refuse_eq_some_iff] at h
    obtain ⟨⟨c, t⟩, hc, h⟩ := Option.bind_eq_some_iff.1 h.2
    dsimp only at h
    split_ifs at h
    cases h
    exact (codePoint_length hc).trans (by simp)
  all_goals
    cases h
    try simp

theorem continuation_length {feed : Bool} (h : continuation feed s = some rest) :
    rest.length ≤ s.length := by
  fun_induction continuation feed s with
  | case1 => cases h
  | case2 s c _ ih => exact (ih h).trans (by simp)
  | case3 => cases h
  | case4 _ c s _ _ ih => exact (ih h).trans (by simp)
  | case5 _ c s _ _ _ ih => exact (ih h).trans (by simp)
  | case6 =>
    cases h
    exact le_rfl

theorem cooked_length {q : Quoting} {n : Nat} {cs : List Char} (h : cooked q n s = some (cs, rest)) :
    rest.length < s.length := by
  induction n generalizing s cs with
  | zero => cases h
  | succ n ih =>
    unfold cooked at h
    split at h
    · cases h
    · cases h
      simp
    · obtain ⟨⟨ds, t⟩, hcooked, h⟩ := Option.map_eq_some_iff.1 h
      cases h
      exact (ih hcooked).trans (by simp)
    · cases h
    · obtain ⟨t, ht, hcooked⟩ := Option.bind_eq_some_iff.1 h
      have := continuation_length ht
      exact (ih hcooked).trans (by simp; omega)
    · obtain ⟨t, ht, hcooked⟩ := Option.bind_eq_some_iff.1 h
      have := continuation_length ht
      exact (ih hcooked).trans (by simp; omega)
    · simp only [Option.bind_eq_bind, Option.bind_eq_some_iff] at h
      obtain ⟨⟨v, t⟩, hescape, ⟨ds, t'⟩, hcooked, h⟩ := h
      cases h
      exact (ih hcooked).trans ((escape_length hescape).trans (by simp))
    · dsimp only at h
      rw [refuse_eq_some_iff] at h
      obtain ⟨⟨ds, t⟩, hcooked, h⟩ := Option.bind_eq_some_iff.1 h.2
      cases h
      exact (ih hcooked).trans (by simp)

theorem rawUntil_length {q : Quoting} {signs cs : List Char}
    (h : rawUntil q signs s = some (cs, rest)) : rest.length < s.length := by
  induction s generalizing cs with
  | nil => cases h
  | cons c t ih =>
    unfold rawUntil at h
    split_ifs at h
    · cases h
      simp
    · obtain ⟨⟨ds, t⟩, hraw, h⟩ := Option.map_eq_some_iff.1 h
      cases h
      exact (ih hraw).trans (by simp)

theorem rawText_length {q : Quoting} {cs : List Char} (h : rawText q s = some (cs, rest)) :
    rest.length < s.length := by
  unfold rawText at h
  dsimp only at h
  split at h
  · rename_i t ht
    split_ifs at h
    have hle := List.length_dropWhile_le (· == '#') s
    rw [ht] at hle
    exact (rawUntil_length h).trans (by simpa using hle)
  · cases h

theorem text_length {cs : List Char} (h : text s = some (cs, rest)) : rest.length < s.length := by
  unfold text at h
  split at h
  · exact (cooked_length h).trans (by simp)
  · exact (rawText_length h).trans (by simp)
  · cases h

theorem byteText_length (h : byteText s = some rest) : rest.length < s.length := by
  unfold byteText at h
  split at h
  · obtain ⟨⟨cs, t⟩, ht, rfl⟩ := Option.map_eq_some_iff.1 h
    exact (cooked_length ht).trans (by simp)
  · obtain ⟨⟨cs, t⟩, ht, rfl⟩ := Option.map_eq_some_iff.1 h
    exact (rawText_length ht).trans (by simp)
  · cases h

theorem nullText_length (h : nullText s = some rest) : rest.length < s.length := by
  unfold nullText at h
  split at h
  · obtain ⟨⟨cs, t⟩, ht, rfl⟩ := Option.map_eq_some_iff.1 h
    exact (cooked_length ht).trans (by simp)
  · obtain ⟨⟨cs, t⟩, ht, rfl⟩ := Option.map_eq_some_iff.1 h
    exact (rawText_length ht).trans (by simp)
  · cases h

theorem quotedChar_length {q : Quoting} (h : quotedChar q s = some rest) :
    rest.length < s.length := by
  unfold quotedChar at h
  split at h
  · cases h
  · obtain ⟨⟨v, t⟩, hescape, h⟩ := Option.bind_eq_some_iff.1 h
    exact (lit_length (by decide) h).trans ((escape_length hescape).trans (by simp))
  · split_ifs at h
    exact (lit_length (by decide) h).trans (by simp)

theorem byte_length (h : byte s = some rest) : rest.length < s.length := by
  obtain ⟨t, ht, h⟩ := Option.bind_eq_some_iff.1 h
  exact (quotedChar_length h).trans (lit_length (by decide) ht)

theorem character_length (h : character s = some rest) : rest.length < s.length := by
  obtain ⟨t, ht, h⟩ := Option.bind_eq_some_iff.1 h
  exact (quotedChar_length h).trans (lit_length (by decide) ht)

/-! Numbers -/

theorem mantissa_length {seen seen' : Bool} (h : mantissa seen s = some (seen', rest)) :
    rest.length ≤ s.length := by
  induction s generalizing seen with
  | nil =>
    cases h
    exact le_rfl
  | cons c t ih =>
    unfold mantissa at h
    split_ifs at h
    · exact (ih h).trans (by simp)
    · exact (ih h).trans (by simp)
    · cases h
      exact le_rfl

theorem exponent_length {sign digit : Bool} (h : exponent sign digit s = some rest) :
    rest.length ≤ s.length := by
  induction s generalizing sign digit with
  | nil =>
    unfold exponent at h
    split_ifs at h
    cases h
    exact le_rfl
  | cons c t ih =>
    unfold exponent at h
    split_ifs at h
    · exact (ih h).trans (by simp)
    · exact (ih h).trans (by simp)
    · exact (ih h).trans (by simp)
    · cases h
      exact le_rfl

/-- A number with a point or an exponent starts with a digit. -/
theorem floatDigits_length (h : floatDigits s = some rest) : rest.length < s.length := by
  unfold floatDigits at h
  dsimp only at h
  rw [refuse_eq_some_iff] at h
  obtain ⟨hdigit, h⟩ := h
  obtain ⟨⟨seen, t⟩, hmantissa, h⟩ := Option.bind_eq_some_iff.1 h
  have hlt : t.length < s.length := by
    cases s with
    | nil => simp at hdigit
    | cons c more =>
      rw [mantissa, if_pos (by simpa using Or.inl (by simpa using hdigit))] at hmantissa
      exact Nat.lt_succ_of_le (mantissa_length hmantissa)
  dsimp only at h
  split at h
  · split at h
    · rename_i after hexp
      cases h
      exact (exponent_length hexp).trans_lt ((by simp : (t.drop 1).length ≤ t.length).trans_lt hlt)
    · split at h <;> cases h
      exact hlt
  · split at h <;> cases h
    exact hlt

theorem numberEnd_length (h : numberEnd s = some rest) : rest.length ≤ s.length := by
  unfold numberEnd at h
  dsimp only at h
  split_ifs at h
  · cases h
    exact suffix_length s
  · cases h
    exact le_rfl

theorem digitsIn_length {base : Nat} {empty : Bool} (h : digitsIn base empty s = some rest) :
    rest.length ≤ s.length ∧ (empty = true → rest.length < s.length) := by
  induction s generalizing empty with
  | nil =>
    unfold digitsIn at h
    split_ifs at h with hempty
    cases h
    exact ⟨le_rfl, fun he => absurd he hempty⟩
  | cons c t ih =>
    have hmore : ∀ {empty' : Bool}, digitsIn base empty' t = some rest →
        rest.length ≤ (c :: t).length ∧ (empty = true → rest.length < (c :: t).length) :=
      fun h => ⟨(ih h).1.trans (by simp), fun _ => (ih h).1.trans_lt (by simp)⟩
    have hends : (if empty = true then none else some (c :: t)) = some rest →
        rest.length ≤ (c :: t).length ∧ (empty = true → rest.length < (c :: t).length) := by
      intro h
      split_ifs at h with hempty
      cases h
      exact ⟨le_rfl, fun he => absurd he hempty⟩
    unfold digitsIn at h
    dsimp only at h
    split at h
    · split_ifs at h
      exact hmore h
    · split at h
      · split at h
        · exact hmore h
        · split at h
          · cases h
          · exact hends h
      · exact hends h

theorem float_length (h : float s = some rest) : rest.length < s.length := by
  obtain ⟨t, ht, h⟩ := Option.bind_eq_some_iff.1 h
  exact (numberEnd_length h).trans_lt (floatDigits_length ht)

theorem integer_length (h : integer s = some rest) : rest.length < s.length := by
  obtain ⟨t, ht, h⟩ := Option.bind_eq_some_iff.1 h
  refine (numberEnd_length h).trans_lt ?_
  have hdrop : (s.drop 2).length ≤ s.length := by simp
  split_ifs at ht
  · exact ((digitsIn_length ht).2 rfl).trans_le hdrop
  · exact ((digitsIn_length ht).2 rfl).trans_le hdrop
  · exact ((digitsIn_length ht).2 rfl).trans_le hdrop
  · exact (digitsIn_length ht).2 rfl

theorem literal_length (h : literal s = some rest) : rest.length < s.length := by
  rw [literal, Option.or_eq_some_iff] at h
  rcases h with h | ⟨-, h⟩
  · obtain ⟨t, ht, rfl⟩ := Option.map_eq_some_iff.1 h
    refine (suffix_length t).trans_lt ?_
    simp only [Option.or_eq_some_iff] at ht
    rcases ht with (((h | ⟨-, h⟩) | ⟨-, h⟩) | ⟨-, h⟩) | ⟨-, h⟩
    · obtain ⟨⟨cs, t⟩, htext, rfl⟩ := Option.map_eq_some_iff.1 h
      exact text_length htext
    · exact byteText_length h
    · exact nullText_length h
    · exact byte_length h
    · exact character_length h
  · rcases Option.or_eq_some_iff.1 h with h | ⟨-, h⟩
    · exact float_length h
    · exact integer_length h

/-! Tokens -/

theorem punct_length {t : Token} (h : punct s = some (t, rest)) : rest.length < s.length := by
  unfold punct at h
  dsimp only at h
  rw [refuse_eq_some_iff] at h
  obtain ⟨-, h⟩ := h
  split at h
  · cases h
  · obtain ⟨⟨i, after⟩, -, h⟩ := Option.bind_eq_some_iff.1 h
    dsimp only at h
    split_ifs at h
    cases h
    simp
  · cases h
    simp

theorem leaf_length {t : Token} (h : leaf s = some (t, rest)) : rest.length < s.length := by
  unfold leaf at h
  split at h
  · rename_i hliteral
    cases h
    exact literal_length hliteral
  · simp only [Option.or_eq_some_iff] at h
    rcases h with (h | ⟨-, h⟩) | ⟨-, h⟩
    · exact punct_length h
    · obtain ⟨⟨i, t⟩, hident, heq⟩ := Option.map_eq_some_iff.1 h
      cases heq
      exact ident_length hident
    · obtain ⟨t, h, heq⟩ := Option.map_eq_some_iff.1 h
      cases heq
      exact lit_length (by decide) h

/-- A documenting comment at the start of a text, and the rest. -/
def docContent (s : List Char) : Option (List Char × Bool × List Char) :=
  if startsWith "//!" s then some ((restOfLine (s.drop 3)).1, true, (restOfLine (s.drop 3)).2)
  else if startsWith "/*!" s then
    (blockComment s).map fun rest =>
      ((s.take (s.length - rest.length - 2)).drop 3, true, rest)
  else if startsWith "///" s && !startsWith "////" s then
    some ((restOfLine (s.drop 3)).1, false, (restOfLine (s.drop 3)).2)
  else if startsWith "/**" s && !startsWith "/***" s then
    (blockComment s).map fun rest =>
      ((s.take (s.length - rest.length - 2)).drop 3, false, rest)
  else none

/-- A documenting comment is refused for a carriage return alone. -/
theorem docComment_eq (s : List Char) : docComment s =
    (docContent s).bind fun content =>
      if docComment.bareReturn content.1 then none else some content := by
  unfold docComment docContent
  dsimp only
  split_ifs
  · rfl
  · cases blockComment s <;> rfl
  · rfl
  · cases blockComment s <;> rfl
  · rfl

theorem docContent_length {content : List Char} {inner : Bool}
    (h : docContent s = some (content, inner, rest)) : rest.length < s.length := by
  have hline : ∀ {w : String}, startsWith w s = true → w.toList.length = 3 →
      (restOfLine (s.drop 3)).2.length < s.length := by
    intro w hw hlen
    have hle := (List.isPrefixOf_iff_prefix.1 hw).length_le
    have hrest := restOfLine_length (s.drop 3)
    rw [List.length_drop] at hrest
    omega
  unfold docContent at h
  split_ifs at h with hinner hblock houter hblock'
  · cases h
    exact hline hinner (by decide)
  · obtain ⟨t, ht, h⟩ := Option.map_eq_some_iff.1 h
    cases h
    exact blockComment_length ht
  · cases h
    rw [Bool.and_eq_true] at houter
    exact hline houter.1 (by decide)
  · obtain ⟨t, ht, h⟩ := Option.map_eq_some_iff.1 h
    cases h
    exact blockComment_length ht

theorem docComment_length {content : List Char} {inner : Bool}
    (h : docComment s = some (content, inner, rest)) : rest.length < s.length := by
  rw [docComment_eq] at h
  obtain ⟨⟨content', inner', rest'⟩, hcontent, h⟩ := Option.bind_eq_some_iff.1 h
  split_ifs at h
  cases h
  exact docContent_length hcontent

/-! Token trees -/

/-- What comes of one step of reading: a result, or what is left to read. -/
inductive Turn where
  | stop (result : Option (List Token))
  | go (outer : List (Delimiter × List Token)) (done : List Token) (rest : List Char)

/-- Reads one token, or opens or closes a group, where the text is neither blank nor a comment. -/
def treeTurn (outer : List (Delimiter × List Token)) (done : List Token) : List Char → Turn
  | [] => .stop (if outer.isEmpty then some done.reverse else none)
  | c :: rest =>
    let opened := if startsWith errorLiteral (c :: rest) then none else opening c
    match opened, closing c, outer with
    | some d, _, _ => .go ((d, done) :: outer) [] rest
    | none, some d, (e, before) :: outer =>
      if d = e then .go outer (.group d done.reverse :: before) rest else .stop none
    | none, some _, [] => .stop none
    | none, none, _ =>
      match leaf (c :: rest) with
      | some (t, rest) => .go outer (t :: done) rest
      | none => .stop none

/-- One step of reading. -/
def turn (outer : List (Delimiter × List Token)) (done : List Token) (s : List Char) : Turn :=
  match docComment (skipSpace s) with
  | some (content, inner, rest) => .go outer (docTokens content inner ++ done) rest
  | none => treeTurn outer done (skipSpace s)

variable {outer outer' : List (Delimiter × List Token)} {done done' : List Token}

theorem trees_succ (n : Nat) (outer : List (Delimiter × List Token)) (done : List Token)
    (s : List Char) : trees (n + 1) outer done s =
      match turn outer done s with
      | .stop result => result
      | .go outer done rest => trees n outer done rest := by
  rw [trees, turn]
  dsimp only
  cases docComment (skipSpace s) with
  | some comment => rfl
  | none =>
    dsimp only
    cases skipSpace s with
    | nil => rfl
    | cons c rest =>
      rw [treeTurn.eq_def]
      dsimp only
      cases (if startsWith errorLiteral (c :: rest) = true then none else opening c) with
      | some d => rfl
      | none =>
        cases closing c with
        | none =>
          dsimp only
          cases leaf (c :: rest) <;> rfl
        | some d =>
          cases outer with
          | nil => rfl
          | cons frame outer =>
            dsimp only
            split_ifs <;> rfl

theorem treeTurn_length (h : treeTurn outer done s = .go outer' done' rest) :
    rest.length < s.length := by
  cases s with
  | nil => cases h
  | cons c t =>
    rw [treeTurn.eq_def] at h
    dsimp only at h
    split at h
    · cases h
      simp
    · split_ifs at h
      cases h
      simp
    · cases h
    · split at h
      · rename_i hleaf
        cases h
        exact leaf_length hleaf
      · cases h

theorem turn_length (h : turn outer done s = .go outer' done' rest) : rest.length < s.length := by
  refine Nat.lt_of_lt_of_le ?_ (skipSpace_length s)
  unfold turn at h
  split at h
  · rename_i hdoc
    cases h
    exact docComment_length hdoc
  · exact treeTurn_length h

/-- Reads on with as many steps as are ever needed. -/
def readOn (outer : List (Delimiter × List Token)) (done : List Token) (s : List Char) :
    Option (List Token) := trees (s.length + 1) outer done s

/-- Reading does not depend on the number of steps. -/
theorem trees_eq {n : Nat} (h : s.length < n) : trees n outer done s = readOn outer done s := by
  have hsame : ∀ {n m : Nat} {outer done s}, s.length < n → s.length < m →
      trees n outer done s = trees m outer done s := by
    intro n
    induction n with
    | zero => exact fun h => absurd h (Nat.not_lt_zero _)
    | succ n ih =>
      intro m outer done s hn hm
      obtain ⟨m, rfl⟩ := Nat.exists_eq_succ_of_ne_zero (Nat.ne_zero_of_lt hm)
      rw [trees_succ, trees_succ]
      cases hturn : turn outer done s with
      | stop result => rfl
      | go outer' done' rest =>
        have hlt := turn_length hturn
        exact ih (by omega) (by omega)
  exact hsame h (Nat.lt_succ_self _)

theorem readOn_eq (outer : List (Delimiter × List Token)) (done : List Token) (s : List Char) :
    readOn outer done s =
      match turn outer done s with
      | .stop result => result
      | .go outer done rest => readOn outer done rest := by
  rw [readOn, trees_succ]
  cases hturn : turn outer done s with
  | stop result => rfl
  | go outer' done' rest => exact trees_eq (turn_length hturn)

/-- Blanks and comments in front do not matter. -/
theorem readOn_congr {t : List Char} (h : skipSpace s = skipSpace t) :
    readOn outer done s = readOn outer done t := by
  rw [readOn_eq, readOn_eq outer done t, turn, turn, h]

theorem readOn_skip (h : skipOnce s = some rest) : readOn outer done s = readOn outer done rest :=
  readOn_congr (by rw [skipSpace_eq, h]; rfl)

end Lexer

/-- Tokens of a text without a byte order mark. -/
theorem tokens?_eq {text : String} (h : text.toList.head? ≠ some (Char.ofNat 0xfeff)) :
    tokens? text = Lexer.readOn [] [] text.toList := by
  rw [tokens?, if_neg (by simpa using h)]
  rfl

end Bindery.Source
