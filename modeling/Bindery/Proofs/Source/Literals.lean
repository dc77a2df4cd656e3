import Bindery.Proofs.Source.Scanning
import Bindery.Proofs.Source.Spelled

/-!
# Text literals are read again

Every text is quoted so that the characters between the quotes stand for it.
-/
namespace Bindery.Source

open Bindery.Text

namespace Lexer

variable {c : Char} {s t : List Char}

/-! Code points -/

theorem codePoint_digits_digit {n count : Nat} (hn : n < 16) (hcount : count < 6) (value : Nat)
    (t : List Char) : codePoint.digits value count (Nat.digitChar n :: t) =
      codePoint.digits (value * 16 + n) (count + 1) t := by
  rw [codePoint.digits, hexValue?_digitChar n hn]
  simp [hcount.ne]

theorem codePoint_digits_toDigits (n : Nat) (h : (Nat.toDigits 16 n).length ≤ 6) (t : List Char) :
    codePoint.digits 0 0 (Nat.toDigits 16 n ++ t) =
      codePoint.digits n (Nat.toDigits 16 n).length t := by
  induction n using Nat.strongRecOn generalizing t with
  | ind n ih =>
    by_cases hlt : n < 16
    · rw [Nat.toDigits_of_lt_base hlt]
      simpa using codePoint_digits_digit hlt (show 0 < 6 by decide) 0 t
    · rw [Nat.toDigits_of_base_le (by decide) (by omega), List.length_append] at h ⊢
      rw [List.length_singleton] at h ⊢
      rw [List.append_assoc, ih (n / 16) (by omega) (by omega), List.singleton_append,
        codePoint_digits_digit (Nat.mod_lt n (by decide)) (by omega), Nat.div_add_mod' n 16]

theorem codePoint_codePointEscape (c : Char) (t : List Char) :
    codePoint ('\x7b' :: (Nat.toDigits 16 c.toNat ++ '\x7d' :: t)) = some (c, t) := by
  have hlt : c.toNat < 16 ^ 6 := by
    have hvalid := c.valid
    rcases hvalid with h | ⟨-, h⟩
    · exact h.trans (by decide)
    · exact h.trans (by decide)
  have hlen := Nat.toDigits_length 16 c.toNat 6 (by decide) hlt
  have hpos : (Nat.toDigits 16 c.toNat).length ≠ 0 := Nat.length_toDigits_pos.ne'
  rw [codePoint, codePoint_digits_toDigits _ hlen, codePoint.digits]
  have hhex : hexValue? '\x7d' = none := by decide
  have hvalid : c.toNat.isValidChar := c.valid
  simp [hhex, hpos, hvalid]

/-! Escapes -/

theorem cooked_escape {q : Quoting} {n v : Nat} (h : escape q s = some (v, t)) :
    cooked q (n + 1) ('\\' :: s) =
      (cooked q n t).map fun (cs, rest) => (Char.ofNat v :: cs, rest) := by
  cases s with
  | nil => cases h
  | cons d s =>
    have hfeed : d ≠ '\n' := by
      rintro rfl
      cases h
    have hreturn : d ≠ '\r' := by
      rintro rfl
      cases h
    conv_lhs => unfold cooked
    split
    case h_7 rest heq =>
      obtain ⟨-, rfl⟩ := List.cons.inj heq
      rw [h, Option.bind_eq_bind, Option.bind_some]
      cases hcooked : cooked q n t <;> simp [hcooked]
    case h_8 hback heq =>
      exact absurd (List.cons.inj heq).1.symm hback
    all_goals simp_all

theorem cooked_plain {n : Nat} (hquote : c ≠ '"') (hback : c ≠ '\\') (hreturn : c ≠ '\r') :
    cooked .text (n + 1) (c :: t) = (cooked .text n t).map fun (cs, rest) => (c :: cs, rest) := by
  conv_lhs => unfold cooked
  split
  case h_8 heq =>
    obtain ⟨rfl, rfl⟩ := List.cons.inj heq
    dsimp only
    rw [if_neg (by simp [allowed])]
    cases cooked .text n t <;> rfl
  all_goals simp_all

/-- An escaped character stands for itself. -/
theorem cooked_escaped (c : Char) (n : Nat) (t : List Char) :
    cooked .text (n + 1) (escaped c ++ t) =
      (cooked .text n t).map fun (cs, rest) => (c :: cs, rest) := by
  unfold escaped
  split_ifs with hnull htab hreturn hfeed hback hquote hhidden
  · rw [beq_iff_eq.1 hnull]
    exact cooked_escape rfl
  · rw [beq_iff_eq.1 htab]
    exact cooked_escape rfl
  · rw [beq_iff_eq.1 hreturn]
    exact cooked_escape rfl
  · rw [beq_iff_eq.1 hfeed]
    exact cooked_escape rfl
  · rw [beq_iff_eq.1 hback]
    exact cooked_escape rfl
  · rw [beq_iff_eq.1 hquote]
    exact cooked_escape rfl
  · have hescape : escape .text ('u' :: '\x7b' :: (Nat.toDigits 16 c.toNat ++ '\x7d' :: t)) =
        some (c.toNat, t) := by
      simp [escape, codePoint_codePointEscape]
    have hcooked := cooked_escape (n := n) hescape
    rw [Char.ofNat_toNat] at hcooked
    simpa [codePointEscape] using hcooked
  · simp only [beq_iff_eq] at hreturn hback hquote
    exact cooked_plain hquote hback hreturn

/-! Literals -/

/-- Enough steps for the characters of a text. -/
theorem cooked_literalBody {n : Nat} (h : s.length < n) (t : List Char) :
    cooked .text n (literalBody s ++ '"' :: t) = some (s, t) := by
  induction s generalizing n with
  | nil =>
    obtain ⟨n, rfl⟩ := Nat.exists_eq_succ_of_ne_zero (Nat.ne_zero_of_lt h)
    rfl
  | cons c s ih =>
    obtain ⟨n, rfl⟩ := Nat.exists_eq_succ_of_ne_zero (Nat.ne_zero_of_lt h)
    have hrest := ih (n := n) (by simpa using h)
    rw [literalBody]
    split
    · rename_i hnull
      simp only [Bool.and_eq_true, beq_iff_eq] at hnull
      have hcooked := cooked_escape (q := .text) (n := n)
        (s := 'x' :: '0' :: '0' :: (literalBody s ++ '"' :: t)) rfl
      rw [hrest] at hcooked
      rw [hnull.1]
      exact hcooked
    · rw [List.append_assoc, cooked_escaped, hrest]
      rfl

theorem escaped_ne_nil (c : Char) : escaped c ≠ [] := by
  unfold escaped
  split_ifs <;> simp [codePointEscape]

theorem length_le_literalBody (s : List Char) : s.length ≤ (literalBody s).length := by
  induction s with
  | nil => exact le_rfl
  | cons c s ih =>
    have hpos := List.length_pos_iff.2 (escaped_ne_nil c)
    rw [literalBody, List.length_append, List.length_cons]
    split
    · rw [List.length_cons]
      omega
    · omega

end Lexer

open Lexer

/-- A quoted text is read as what it stands for, whatever follows. -/
theorem text_quote (text : String) (rest : List Char) :
    Lexer.text ((quote text).toList ++ rest) = some (text.toList, rest) := by
  have hle := length_le_literalBody text.toList
  rw [toList_quote, List.cons_append, List.append_assoc, List.singleton_append, Lexer.text, cookedText]
  refine cooked_literalBody ?_ rest
  rw [List.length_append, List.length_cons]
  omega

end Bindery.Source
