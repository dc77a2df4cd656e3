import Bindery.Json.Printer
import Bindery.Proofs.Json.Agreement

/-!
# Reading what was written

The compact text of a document is read back as that document.
-/
namespace Bindery.Json

open Bindery.Text (Piece)

variable {text rest : List Piece}

def chars (cs : List Char) : List Piece := cs.map .char

@[simp] theorem chars_nil : chars [] = [] := rfl

@[simp] theorem chars_cons (c : Char) (cs : List Char) :
    chars (c :: cs) = .char c :: chars cs := rfl

@[simp] theorem chars_append (cs ds : List Char) : chars (cs ++ ds) = chars cs ++ chars ds :=
  List.map_append

@[simp] theorem length_chars (cs : List Char) : (chars cs).length = cs.length := List.length_map ..

/-! Strings -/

theorem codePoint_control {c : Char} (hc : c < ' ') (rest : List Piece) :
    codePoint (chars ['0', '0', Nat.digitChar (c.toNat / 16), Nat.digitChar (c.toNat % 16)] ++
      rest) = .ok (c, rest) := by
  have hlt : c.toNat < 32 := hc
  have hhigh : Text.hexValue? (Nat.digitChar (c.toNat / 16)) = some (c.toNat / 16) :=
    Text.hexValue?_digitChar _ (by omega)
  have hlow : Text.hexValue? (Nat.digitChar (c.toNat % 16)) = some (c.toNat % 16) :=
    Text.hexValue?_digitChar _ (by omega)
  have hzero : Text.hexValue? '0' = some 0 := rfl
  have hquad : hexQuad (chars ['0', '0', Nat.digitChar (c.toNat / 16),
      Nat.digitChar (c.toNat % 16)] ++ rest) = .ok (c.toNat, rest) := by
    simp [hexQuad, Piece.char?, hzero, hhigh, hlow]
    omega
  have hnot : ¬ (0xdc00 ≤ c.toNat ∧ c.toNat ≤ 0xdfff) := by omega
  have hsmall : c.toNat < 0xd800 := by omega
  unfold codePoint
  rw [hquad]
  simp [bind, Except.bind, hnot, hsmall, Char.ofNat_toNat, pure, Except.pure]

theorem stringFrom_codePoint {n : Nat} {read : List Char} {sound : Bool} {c : Char}
    (h : codePoint text = .ok (c, rest)) :
    stringFrom (n + 1) read sound (.char '\\' :: .char 'u' :: text) =
      stringFrom n (c :: read) sound rest := by
  rw [stringFrom, h]
  rfl

/-- A written character is read back. -/
theorem stringFrom_stringChar (n : Nat) (read : List Char) (c : Char) (text : List Piece) :
    stringFrom (n + 1) read true (chars (stringChar c) ++ text) =
      stringFrom n (c :: read) true text := by
  by_cases hquote : c = '"'
  · subst hquote
    rfl
  by_cases hescape : c = '\\'
  · subst hescape
    rfl
  by_cases hb : c = '\x08'
  · subst hb
    rfl
  by_cases hf : c = '\x0c'
  · subst hf
    rfl
  by_cases hn : c = '\n'
  · subst hn
    rfl
  by_cases hr : c = '\r'
  · subst hr
    rfl
  by_cases ht : c = '\t'
  · subst ht
    rfl
  by_cases hcontrol : c < ' '
  · have htext : stringChar c = '\\' :: 'u' ::
        ['0', '0', Nat.digitChar (c.toNat / 16), Nat.digitChar (c.toNat % 16)] := by
      simp [stringChar, hquote, hescape, hb, hf, hn, hr, ht, hcontrol]
    rw [htext, chars_cons, chars_cons, List.cons_append, List.cons_append]
    exact stringFrom_codePoint (codePoint_control hcontrol text)
  · have htext : stringChar c = [c] := by
      simp [stringChar, hquote, hescape, hb, hf, hn, hr, ht, hcontrol]
    rw [htext, chars_cons, chars_nil, List.cons_append, List.nil_append, stringFrom]
    · simp [hcontrol]
    · exact hquote
    · exact hescape

/-- A string is read back to its closing quote. -/
theorem stringFrom_flatMap (cs read : List Char) {n : Nat} (hn : cs.length < n)
    (rest : List Piece) :
    stringFrom n read true (chars (cs.flatMap stringChar) ++ .char '"' :: rest) =
      .ok (String.ofList (read.reverse ++ cs), rest) := by
  obtain ⟨n, rfl⟩ := Nat.exists_eq_add_one_of_ne_zero (Nat.ne_zero_of_lt hn)
  induction cs generalizing read n with
  | nil =>
    rw [List.append_nil]
    rfl
  | cons c cs ih =>
    obtain ⟨n, rfl⟩ := Nat.exists_eq_add_one_of_ne_zero (show n ≠ 0 by
      simp only [List.length_cons] at hn
      omega)
    rw [List.flatMap_cons, chars_append, List.append_assoc, stringFrom_stringChar,
      ih (c :: read) n (by simpa using hn)]
    simp

theorem stringChar_ne_nil (c : Char) : stringChar c ≠ [] := by
  unfold stringChar
  repeat' split
  all_goals simp

theorem length_le_flatMap (cs : List Char) : cs.length ≤ (cs.flatMap stringChar).length := by
  induction cs with
  | nil => simp
  | cons c cs ih =>
    have hpos := List.length_pos_of_ne_nil (stringChar_ne_nil c)
    rw [List.flatMap_cons, List.length_append, List.length_cons]
    omega

theorem reads_stringText (s : String) (rest : List Piece) :
    Reads stringBody (chars (stringText s) ++ rest).tail s rest := by
  have htail : (chars (stringText s) ++ rest).tail =
      chars (s.toList.flatMap stringChar) ++ .char '"' :: rest := by
    simp [stringText]
  rw [htail, reads_stringBody, stringFrom_flatMap]
  · simp
  · have hlen := length_le_flatMap s.toList
    simp only [List.length_append, length_chars, List.length_cons]
    omega

/-! Numbers -/

/-- Nothing follows that would go on with a number. -/
def EndsNumber (text : List Piece) : Prop :=
  ∀ c, front text = some c → c.isDigit = false ∧ c ≠ '.' ∧ c ≠ 'e' ∧ c ≠ 'E'

theorem endsNumber_nil : EndsNumber [] := by
  rintro c ⟨⟩

theorem endsNumber_cons {c : Char} (h : c.isDigit = false ∧ c ≠ '.' ∧ c ≠ 'e' ∧ c ≠ 'E')
    (text : List Piece) : EndsNumber (.char c :: text) := by
  rintro d hd
  obtain rfl : c = d := Option.some.inj hd
  exact h

theorem reads_digits {ds : List Char} (hds : ∀ c ∈ ds, c.isDigit = true)
    (hrest : ∀ c, front rest = some c → c.isDigit = false) :
    Reads digits (chars ds ++ rest) ds rest := by
  have hall : ∀ p ∈ chars ds, p.char?.any Char.isDigit = true := by
    intro p hp
    obtain ⟨c, hc, rfl⟩ := List.mem_map.1 hp
    exact hds c hc
  have hstop : rest.takeWhile (fun p => p.char?.any Char.isDigit) = [] := by
    cases rest with
    | nil => rfl
    | cons p rest =>
      refine List.takeWhile_cons_of_neg ?_
      cases p with
      | broken bytes => simp [Piece.char?]
      | char c => simpa [Piece.char?] using hrest c rfl
  have hdrop : rest.dropWhile (fun p => p.char?.any Char.isDigit) = rest := by
    have happend := List.takeWhile_append_dropWhile
      (p := fun p => p.char?.any Char.isDigit) (l := rest)
    rwa [hstop, List.nil_append] at happend
  unfold digits
  simp only [reads_bind, reads_get, reads_set, reads_pure]
  refine ⟨_, _, ⟨rfl, rfl⟩, (), rest, ?_, ?_, rfl⟩
  · rw [List.dropWhile_append_of_pos hall, hdrop]
  · rw [List.takeWhile_append_of_pos hall, hstop, List.append_nil, chars, List.map_map]
    exact List.map_id ds

theorem le_ofDigitChars (m : Nat) (ds : List Char) : m ≤ Nat.ofDigitChars 10 ds m := by
  rw [Nat.ofDigitChars_eq_ofDigitChars_zero]
  have hpos : 0 < 10 ^ ds.length := Nat.pow_pos (by decide)
  have hmul : 1 * m ≤ 10 ^ ds.length * m := Nat.mul_le_mul_right m hpos
  omega

theorem absorb_eq (m : Nat) {ds : List Char} (h : Nat.ofDigitChars 10 ds m < significandLimit) :
    absorb m ds = (Nat.ofDigitChars 10 ds m, []) := by
  induction ds generalizing m with
  | nil => rfl
  | cons c ds ih =>
    rw [Nat.ofDigitChars_cons, Nat.mul_comm] at h ⊢
    have hnext := le_ofDigitChars (m * 10 + (c.toNat - '0'.toNat)) ds
    rw [absorb, if_pos (hnext.trans_lt h)]
    exact ih _ h

/-- No positive number is written with a zero in front. -/
theorem toDigits_ne_zero_cons {n : Nat} (hn : 0 < n) (ds : List Char) :
    Nat.toDigits 10 n ≠ '0' :: ds := by
  induction n using Nat.strong_induction_on generalizing ds with
  | _ n ih =>
    by_cases hlt : n < 10
    · rw [Nat.toDigits_of_lt_base hlt]
      intro h
      have hzero : Nat.digitChar n = '0' := (List.cons.inj h).1
      rw [Nat.digitChar_eq_zero] at hzero
      omega
    · rw [Nat.toDigits_of_base_le (by decide) (by omega)]
      have hdiv : 0 < n / 10 := by omega
      cases hds : Nat.toDigits 10 (n / 10) with
      | nil => exact absurd hds Nat.toDigits_ne_nil
      | cons d ds' =>
        intro h
        obtain rfl : d = '0' := (List.cons.inj h).1
        exact ih (n / 10) (by omega) hdiv ds' hds

theorem reads_number (positive : Bool) {n : Nat} (hn : n < significandLimit)
    (hrest : EndsNumber rest) {j : Json}
    (hj : Reads (if positive then return .integer n
      else if n == 0 || 0x8000000000000000 < n then realOf false n 0
      else return .integer (-(n : Int)) : Reader Json) rest j rest) :
    Reads (number positive) (chars (Nat.toDigits 10 n) ++ rest) j rest := by
  have hds : ∀ c ∈ Nat.toDigits 10 n, c.isDigit = true := fun c hc =>
    Nat.isDigit_of_mem_toDigits (by decide) (by decide) hc
  have habsorb : absorb 0 (Nat.toDigits 10 n) = (n, []) := by
    rw [absorb_eq, Nat.ofDigitChars_ten_toDigits]
    rwa [Nat.ofDigitChars_ten_toDigits]
  unfold number
  refine reads_bind.2 ⟨_, rest, reads_digits hds fun c hc => (hrest c hc).1, ?_⟩
  dsimp only
  split
  · exact absurd ‹_› Nat.toDigits_ne_nil
  · rename_i d ds hzero
    rcases Nat.eq_zero_or_pos n with rfl | hpos
    · rw [Nat.toDigits_zero] at hzero
      cases hzero
    · exact absurd hzero (toDigits_ne_zero_cons hpos _)
  · rw [habsorb]
    dsimp only
    rw [reads_peek_bind]
    split
    · exact absurd rfl (hrest _ ‹_›).2.1
    · exact absurd rfl (hrest _ ‹_›).2.2.1
    · exact absurd rfl (hrest _ ‹_›).2.2.2
    · exact hj

/-- An integer that is read as one. -/
def IsReadable (n : Int) : Prop := -0x8000000000000000 ≤ n ∧ n < significandLimit

theorem scalar_digit {c : Char} (h : c.isDigit = true) : scalar c = number true := by
  unfold scalar
  split
  · exact absurd h (by decide)
  · exact absurd h (by decide)
  · exact absurd h (by decide)
  · exact absurd h (by decide)
  · exact absurd h (by decide)
  · rw [if_pos h]

/-- A digit is no blank and no bracket. -/
theorem plain_of_isDigit {c : Char} (h : c.isDigit = true) :
    isSpace (.char c) = false ∧ c ∉ ['[', '\x7b', ']'] := by
  have hne : ∀ d : Char, d.isDigit = false → c ≠ d := by
    rintro d hd rfl
    exact absurd h (by rw [hd]; decide)
  constructor
  · simp [isSpace, hne ' ' rfl, hne '\n' rfl, hne '\t' rfl, hne '\r' rfl]
  · simp [hne '[' rfl, hne '\x7b' rfl, hne ']' rfl]

theorem reads_integerText {n : Int} (h : IsReadable n) (hrest : EndsNumber rest) :
    ∃ c cs, integerText n = c :: cs ∧ (c = '-' ∨ c.isDigit = true) ∧
      Reads (scalar c) (chars (integerText n) ++ rest) (.integer n) rest := by
  cases n with
  | ofNat n =>
    have hread := reads_number true (Int.ofNat_lt.1 h.2) hrest
      (j := .integer n) (reads_pure.2 ⟨rfl, rfl⟩)
    rw [integerText]
    cases hds : Nat.toDigits 10 n with
    | nil => exact absurd hds Nat.toDigits_ne_nil
    | cons d ds =>
      have hdigit : d.isDigit = true :=
        Nat.isDigit_of_mem_toDigits (by decide) (by decide) (hds ▸ List.mem_cons_self)
      rw [hds] at hread
      refine ⟨d, ds, rfl, .inr hdigit, ?_⟩
      rw [scalar_digit hdigit]
      exact hread
  | negSucc n =>
    have hlow := h.1
    have hsmall : n + 1 ≤ 0x8000000000000000 := by
      rw [Int.negSucc_eq] at hlow
      omega
    have hread := reads_number false (n := n + 1) (j := .integer (.negSucc n))
      (by rw [significandLimit, UInt64.size]; omega) hrest (by
        have hnot : ¬ (0x8000000000000000 < n + 1) := by omega
        simp [hnot, Int.negSucc_eq])
    refine ⟨'-', Nat.toDigits 10 (n + 1), rfl, .inl rfl, ?_⟩
    exact reads_skip_bind.2 hread

/-! Documents -/

/-- A document that nests at most so many levels and whose numbers are integers that are read as
such. -/
def Fits : Nat → Json → Prop
  | _, .null => True
  | _, .bool _ => True
  | _, .integer n => IsReadable n
  | _, .real _ => False
  | _, .string _ => True
  | 0, .array _ => False
  | d + 1, .array items => ∀ j ∈ items, Fits d j
  | 0, .object _ => False
  | d + 1, .object ms => ∀ m ∈ ms, Fits d m.2

theorem past_char {c : Char} (h : isSpace (.char c) = false) (text : List Piece) :
    past (.char c :: text) = .char c :: text :=
  List.dropWhile_cons_of_neg (by simp [h])

theorem Reads.front_value {d : Nat} {j : Json} (h : Reads (value d) text j rest) :
    front (past text) ≠ none ∧ front (past text) ≠ some ']' := by
  rw [value_eq, reads_valueWith] at h
  rcases h with ⟨_, _, _, -, hc, -⟩ | ⟨_, _, _, -, hc, -⟩ | ⟨c, hc, -, -, hj⟩
  · simp [hc]
  · simp [hc]
  · rw [hc]
    refine ⟨Option.some_ne_none c, fun h => ?_⟩
    obtain rfl := Option.some.inj h
    simp [scalar] at hj

/-- A value without parts at the front of a text. -/
theorem reads_value_scalar {d : Nat} {c : Char} {j : Json} {text : List Piece}
    (hspace : isSpace (.char c) = false) (hlist : c ≠ '[') (hobject : c ≠ '\x7b')
    (h : Reads (scalar c) (.char c :: text) j rest) : Reads (value d) (.char c :: text) j rest := by
  rw [value_eq, reads_valueWith, past_char hspace]
  exact .inr (.inr ⟨c, rfl, hlist, hobject, h⟩)

theorem endsNumber_items (js : List Json) (rest : List Piece) :
    EndsNumber (chars (compactItems js) ++ rest) := by
  cases js with
  | nil => exact endsNumber_cons (by decide) _
  | cons j js => exact endsNumber_cons (by decide) _

theorem endsNumber_members (ms : List (String × Json)) (rest : List Piece) :
    EndsNumber (chars (compactMembers ms) ++ rest) := by
  cases ms with
  | nil => exact endsNumber_cons (by decide) _
  | cons m ms => exact endsNumber_cons (by decide) _

/-- What is left of a list behind one of its items. -/
theorem reads_compactItems {d : Nat} {js : List Json}
    (hjs : ∀ j ∈ js, ∀ rest, EndsNumber rest → Reads (value d) (chars (compact j) ++ rest) j rest)
    {n : Nat} (hn : js.length < n) (rest : List Piece) :
    Reads (itemsFrom (value d) n false) (chars (compactItems js) ++ rest) js
      (.char ']' :: rest) := by
  induction js generalizing n with
  | nil =>
    obtain ⟨n, rfl⟩ := Nat.exists_eq_add_one_of_ne_zero (Nat.ne_zero_of_lt hn)
    rw [reads_itemsFrom_succ]
    exact .inl ⟨rfl, rfl, rfl⟩
  | cons j js ih =>
    obtain ⟨n, rfl⟩ := Nat.exists_eq_add_one_of_ne_zero (Nat.ne_zero_of_lt hn)
    have hj := hjs j List.mem_cons_self _ (endsNumber_items js rest)
    have hmore := ih (fun j hj => hjs j (List.mem_cons_of_mem _ hj))
      (n := n) (by simpa using hn)
    rw [reads_itemsFrom_succ, compactItems, chars_cons, chars_append, List.cons_append,
      List.append_assoc]
    exact .inr ⟨j, js, _, _, rfl, ⟨⟨rfl, rfl⟩, hj.front_value⟩, reads_value_past.2 hj, hmore⟩

theorem length_le_compactItems (js : List Json) : js.length < (compactItems js).length := by
  induction js with
  | nil => simp [compactItems]
  | cons j js ih =>
    rw [compactItems, List.length_cons, List.length_cons, List.length_append]
    omega

/-- A list is read back if its items are. -/
theorem reads_compact_array {d : Nat} {js : List Json}
    (hjs : ∀ j ∈ js, ∀ rest, EndsNumber rest → Reads (value d) (chars (compact j) ++ rest) j rest)
    (rest : List Piece) :
    Reads (value (d + 1)) (chars (compact (.array js)) ++ rest) (.array js) rest := by
  rw [value_eq, reads_valueWith]
  refine .inl ⟨value d, js, .char ']' :: rest, rfl, ?_, rfl, ?_, reads_closeList.2 ⟨rfl, rfl⟩⟩
  · cases js with
    | nil => rfl
    | cons j js => rfl
  · rw [reads_items]
    cases js with
    | nil => exact reads_itemsFrom_succ.2 (.inl ⟨rfl, rfl, rfl⟩)
    | cons j js =>
      have hj := hjs j List.mem_cons_self _ (endsNumber_items js rest)
      have hpast : (past (chars (compact (.array (j :: js))) ++ rest)).tail =
          chars (compact j) ++ (chars (compactItems js) ++ rest) := by
        rw [compact, chars_cons, List.cons_append, past_char (by decide), List.tail_cons,
          chars_append, List.append_assoc]
      have hfuel : js.length < (chars (compact j) ++ (chars (compactItems js) ++ rest)).length := by
        have hlen := length_le_compactItems js
        simp only [List.length_append, length_chars]
        omega
      rw [hpast, reads_itemsFrom_succ]
      exact .inr ⟨j, js, _, _, rfl, ⟨rfl, hj.front_value⟩, reads_value_past.2 hj,
        reads_compactItems (fun j hj => hjs j (List.mem_cons_of_mem _ hj)) hfuel rest⟩

/-- A member at the front of a text. -/
theorem reads_compact_member {d : Nat} {m : String × Json} {first : Bool} {n : Nat}
    {ms : List (String × Json)} {text rest end_ : List Piece}
    (hm : ∀ rest, EndsNumber rest → Reads (value d) (chars (compact m.2) ++ rest) m.2 rest)
    (hnext : Next first text (chars (stringText m.1 ++ ':' :: compact m.2) ++ rest))
    (hrest : EndsNumber rest) (hmore : Reads (membersFrom (value d) n false) rest ms end_) :
    Reads (membersFrom (value d) (n + 1) first) text (m :: ms) end_ := by
  have hkey := reads_stringText m.1 (.char ':' :: (chars (compact m.2) ++ rest))
  rw [chars_append, chars_cons, List.append_assoc, List.cons_append] at hnext
  rw [reads_membersFrom_succ]
  exact .inr ⟨m.1, m.2, ms, _, _, chars (compact m.2) ++ rest, rest, rfl, hnext, rfl, hkey,
    reads_colon.2 ⟨rfl, rfl⟩, hm rest hrest, hmore⟩

theorem past_stringText (key : String) (cs : List Char) (text : List Piece) :
    past (chars (stringText key ++ cs) ++ text) = chars (stringText key ++ cs) ++ text :=
  past_char (by decide) _

theorem chars_compactMembers_cons (m : String × Json) (ms : List (String × Json))
    (rest : List Piece) : chars (compactMembers (m :: ms)) ++ rest =
      .char ',' :: (chars (stringText m.1 ++ ':' :: compact m.2) ++
        (chars (compactMembers ms) ++ rest)) := by
  simp [compactMembers]

/-- What is left of an object behind one of its members. -/
theorem reads_compactMembers {d : Nat} {ms : List (String × Json)}
    (hms : ∀ m ∈ ms, ∀ rest, EndsNumber rest →
      Reads (value d) (chars (compact m.2) ++ rest) m.2 rest)
    {n : Nat} (hn : ms.length < n) (rest : List Piece) :
    Reads (membersFrom (value d) n false) (chars (compactMembers ms) ++ rest) ms
      (.char '\x7d' :: rest) := by
  induction ms generalizing n with
  | nil =>
    obtain ⟨n, rfl⟩ := Nat.exists_eq_add_one_of_ne_zero (Nat.ne_zero_of_lt hn)
    rw [reads_membersFrom_succ]
    exact .inl ⟨rfl, rfl, rfl⟩
  | cons m ms ih =>
    obtain ⟨n, rfl⟩ := Nat.exists_eq_add_one_of_ne_zero (Nat.ne_zero_of_lt hn)
    have hmore := ih (fun m hm => hms m (List.mem_cons_of_mem _ hm)) (n := n) (by simpa using hn)
    refine reads_compact_member (hms m List.mem_cons_self) ?_ (endsNumber_members ms rest) hmore
    rw [chars_compactMembers_cons]
    exact ⟨rfl, past_stringText _ _ _⟩

theorem length_le_compactMembers (ms : List (String × Json)) :
    ms.length < (compactMembers ms).length := by
  induction ms with
  | nil => simp [compactMembers]
  | cons m ms ih =>
    rw [compactMembers, List.length_cons, List.length_cons, List.length_append, List.length_cons,
      List.length_append]
    omega

/-- An object is read back if the values of its members are. -/
theorem reads_compact_object {d : Nat} {ms : List (String × Json)}
    (hms : ∀ m ∈ ms, ∀ rest, EndsNumber rest →
      Reads (value d) (chars (compact m.2) ++ rest) m.2 rest) (rest : List Piece) :
    Reads (value (d + 1)) (chars (compact (.object ms)) ++ rest) (.object ms) rest := by
  rw [value_eq, reads_valueWith]
  refine .inr (.inl ⟨value d, ms, .char '\x7d' :: rest, rfl, ?_, rfl, ?_,
    reads_closeObject.2 ⟨rfl, rfl⟩⟩)
  · cases ms with
    | nil => rfl
    | cons m ms => rfl
  · rw [reads_members]
    cases ms with
    | nil => exact reads_membersFrom_succ.2 (.inl ⟨rfl, rfl, rfl⟩)
    | cons m ms =>
      have hpast : (past (chars (compact (.object (m :: ms))) ++ rest)).tail =
          chars (stringText m.1 ++ ':' :: compact m.2) ++ (chars (compactMembers ms) ++ rest) := by
        rw [compact, chars_cons, List.cons_append, past_char (by decide), List.tail_cons]
        simp
      rw [hpast]
      have hfuel : ms.length < (chars (stringText m.1 ++ ':' :: compact m.2) ++
          (chars (compactMembers ms) ++ rest)).length := by
        have hlen := length_le_compactMembers ms
        simp only [List.length_append, length_chars]
        omega
      exact reads_compact_member (hms m List.mem_cons_self) (past_stringText _ _ _)
        (endsNumber_members ms rest)
        (reads_compactMembers (fun m hm => hms m (List.mem_cons_of_mem _ hm)) hfuel rest)

theorem reads_word (cs : List Char) (rest : List Piece) :
    Reads (word cs) (chars cs ++ rest) () rest := by
  induction cs with
  | nil => exact reads_pure.2 ⟨rfl, rfl⟩
  | cons c cs ih =>
    unfold word
    rw [reads_peek_bind]
    change Reads (if (c == c) = true then skip >>= fun _ => word cs else _) _ _ _
    rw [if_pos (beq_self_eq_true c), reads_skip_bind]
    exact ih

/-- The text of a document without parts is read back as the document. -/
theorem reads_compact_scalar {d : Nat} {j : Json} (hscalar : IsScalar j) (h : Fits d j)
    (hrest : EndsNumber rest) : Reads (value d) (chars (compact j) ++ rest) j rest := by
  cases j with
  | array js => exact hscalar.elim
  | object ms => exact hscalar.elim
  | real x =>
    cases d with
    | zero => exact h.elim
    | succ d => exact h.elim
  | null =>
    refine reads_value_scalar (by decide) (by decide) (by decide) (reads_skip_bind.2 ?_)
    exact reads_bind.2 ⟨(), rest, reads_word ['u', 'l', 'l'] rest, reads_pure.2 ⟨rfl, rfl⟩⟩
  | bool b =>
    cases b with
    | true =>
      refine reads_value_scalar (by decide) (by decide) (by decide) (reads_skip_bind.2 ?_)
      exact reads_bind.2 ⟨(), rest, reads_word ['r', 'u', 'e'] rest, reads_pure.2 ⟨rfl, rfl⟩⟩
    | false =>
      refine reads_value_scalar (by decide) (by decide) (by decide) (reads_skip_bind.2 ?_)
      exact reads_bind.2 ⟨(), rest, reads_word ['a', 'l', 's', 'e'] rest, reads_pure.2 ⟨rfl, rfl⟩⟩
  | string s =>
    refine reads_value_scalar (by decide) (by decide) (by decide) (reads_skip_bind.2 ?_)
    exact reads_bind.2 ⟨s, rest, reads_stringText s rest, reads_pure.2 ⟨rfl, rfl⟩⟩
  | integer n =>
    have hn : IsReadable n := by
      cases d with
      | zero => exact h
      | succ d => exact h
    obtain ⟨c, cs, hcs, hc, hread⟩ := reads_integerText hn hrest
    have hplain : isSpace (.char c) = false ∧ c ∉ ['[', '\x7b', ']'] := by
      rcases hc with rfl | hdigit
      · decide
      · exact plain_of_isDigit hdigit
    simp only [List.mem_cons, List.not_mem_nil, or_false, not_or] at hplain
    rw [compact, hcs] at *
    exact reads_value_scalar hplain.1 hplain.2.1 hplain.2.2.1 hread

/-- The text of a document is read back as the document. -/
theorem reads_compact {d : Nat} {j : Json} (h : Fits d j) (hrest : EndsNumber rest) :
    Reads (value d) (chars (compact j) ++ rest) j rest := by
  induction d generalizing j rest with
  | zero =>
    cases j with
    | array js => exact h.elim
    | object ms => exact h.elim
    | _ => exact reads_compact_scalar trivial h hrest
  | succ d ih =>
    cases j with
    | array js => exact reads_compact_array (fun j hj rest hrest => ih (h j hj) hrest) rest
    | object ms => exact reads_compact_object (fun m hm rest hrest => ih (h m hm) hrest) rest
    | _ => exact reads_compact_scalar trivial h hrest

/-- A document survives being written. -/
theorem parse_text {j : Json} (h : Fits maxDepth j) : parse (Text.pieces j.text) = .ok j := by
  have htext : Text.pieces j.text = chars (compact j) ++ [] := by
    rw [List.append_nil, Text.pieces, Json.text, String.toList_ofList, chars]
  rw [parse, run?_eq_ok_iff, htext]
  exact ⟨[], reads_compact h endsNumber_nil, rfl⟩

end Bindery.Json
