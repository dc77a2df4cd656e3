import Bindery.Text.Utf8
import Mathlib

/-!
# The bytes of a text

A text is read again from its bytes: those of a character are a lead byte and followers in the
ranges that belong to it, and the character is made of their low bits.
-/
namespace Bindery.Text

/-- Each byte lies in its range. -/
def Within (ranges : List (Nat × Nat)) (bytes : List UInt8) : Prop :=
  List.Forall₂ (fun r b => r.1 ≤ b.toNat ∧ b.toNat ≤ r.2) ranges bytes

theorem piecesFrom_followers {ranges : List (Nat × Nat)} {bytes : List UInt8}
    (h : Within ranges bytes) (hne : ranges ≠ []) (held rest : List UInt8) :
    piecesFrom held ranges (bytes ++ rest) =
      .char (charOfBytes (held.reverse ++ bytes)) :: piecesFrom [] [] rest := by
  induction h generalizing held with
  | nil => exact absurd rfl hne
  | @cons r b more bytes hb hmore ih =>
    obtain ⟨hlow, hhigh⟩ := hb
    rw [List.cons_append, piecesFrom.eq_def]
    cases hmore with
    | nil => simp [hlow, hhigh]
    | cons hc hmore =>
      have hrest := ih (by simp) (b :: held)
      simpa [hlow, hhigh] using hrest

/-- A lead byte with its followers is read as one character. -/
theorem piecesFrom_lead {lead : UInt8} {ranges : List (Nat × Nat)} {bytes : List UInt8}
    (hlead : followers lead.toNat = some ranges) (h : Within ranges bytes) (rest : List UInt8) :
    piecesFrom [] [] (lead :: bytes ++ rest) =
      .char (charOfBytes (lead :: bytes)) :: piecesFrom [] [] rest := by
  rw [List.cons_append, piecesFrom.eq_def]
  cases h with
  | nil => simp [hlead]
  | cons hb hmore =>
    have hrest := piecesFrom_followers (.cons hb hmore) (by simp) [lead] rest
    simpa [hlead] using hrest

/-- The bytes of a character are those of one lead byte. -/
def Leads (c : Char) (bytes : List UInt8) : Prop :=
  ∃ lead more ranges, bytes = lead :: more ∧ followers lead.toNat = some ranges ∧
    Within ranges more ∧ charOfBytes bytes = c

/-! What a character is made of -/

section Values

variable (a b c d : UInt8)

theorem charOfBytes_one : charOfBytes [a] = Char.ofNat (a.toNat % 128) :=
  congrArg Char.ofNat (Nat.and_two_pow_sub_one_eq_mod a.toNat 7)

theorem charOfBytes_two :
    charOfBytes [a, b] = Char.ofNat (a.toNat % 32 * 64 + b.toNat % 64) := by
  have hlow : Nat.land a.toNat 0x1f = a.toNat % 32 := Nat.and_two_pow_sub_one_eq_mod _ 5
  simp only [charOfBytes, List.length_singleton, List.foldl_cons, List.foldl_nil, hlow]

theorem charOfBytes_three : charOfBytes [a, b, c] =
    Char.ofNat ((a.toNat % 16 * 64 + b.toNat % 64) * 64 + c.toNat % 64) := by
  have hlow : Nat.land a.toNat 0x0f = a.toNat % 16 := Nat.and_two_pow_sub_one_eq_mod _ 4
  simp only [charOfBytes, List.length_cons, List.length_nil, List.foldl_cons, List.foldl_nil, hlow]

theorem charOfBytes_four : charOfBytes [a, b, c, d] =
    Char.ofNat (((a.toNat % 8 * 64 + b.toNat % 64) * 64 + c.toNat % 64) * 64 + d.toNat % 64) := by
  have hlow : Nat.land a.toNat 0x07 = a.toNat % 8 := Nat.and_two_pow_sub_one_eq_mod _ 3
  simp only [charOfBytes, List.length_cons, List.length_nil, List.foldl_cons, List.foldl_nil, hlow]

end Values

/-! Bytes by the size of a character -/

section Sizes

variable {n : Nat}

theorem toNat_ofNat {k : Nat} (h : k < 256) : (UInt8.ofNat k).toNat = k :=
  UInt8.toNat_ofNat_of_lt h

/-- A follower is a number of six bits. -/
theorem toNat_follower (k : Nat) : (UInt8.ofNat (k % 64 + 128)).toNat = k % 64 + 128 :=
  toNat_ofNat (by omega)

theorem follower_within (k : Nat) : 0x80 ≤ (UInt8.ofNat (k % 64 + 128)).toNat ∧
    (UInt8.ofNat (k % 64 + 128)).toNat ≤ 0xbf := by
  rw [toNat_follower]
  omega

theorem leads_one (h : n ≤ 0x7f) : Leads (Char.ofNat n) [UInt8.ofNat n] := by
  have hlead : (UInt8.ofNat n).toNat = n := toNat_ofNat (by omega)
  refine ⟨_, [], [], rfl, ?_, .nil, ?_⟩
  · rw [hlead, followers, if_pos (by omega)]
  · rw [charOfBytes_one, hlead, Nat.mod_eq_of_lt (by omega)]

theorem leads_two (h : 0x7f < n) (hn : n ≤ 0x7ff) : Leads (Char.ofNat n)
    [UInt8.ofNat (n / 64 % 32 + 192), UInt8.ofNat (n % 64 + 128)] := by
  have hlead : (UInt8.ofNat (n / 64 % 32 + 192)).toNat = n / 64 + 192 := by
    rw [toNat_ofNat (by omega)]
    omega
  refine ⟨_, _, [(0x80, 0xbf)], rfl, ?_, .cons (follower_within n) .nil, ?_⟩
  · rw [hlead, followers, if_neg (by omega), if_neg (by omega), if_pos (by omega)]
  · rw [charOfBytes_two, hlead, toNat_follower]
    congr 1
    omega

/-- The lowest row and that of the surrogates leave out a part of the followers. -/
theorem followers_three (h : 0x7ff < n) (hn : n ≤ 0xffff) (hvalid : n < 0xd800 ∨ 0xdfff < n) :
    ∃ low high, followers (n / 4096 + 224) = some [(low, high), (0x80, 0xbf)] ∧
      low ≤ n / 64 % 64 + 128 ∧ n / 64 % 64 + 128 ≤ high := by
  simp only [followers, beq_iff_eq]
  rw [if_neg (by omega), if_neg (by omega), if_neg (by omega)]
  split
  · exact ⟨_, _, rfl, by omega, by omega⟩
  split
  · exact ⟨_, _, rfl, by omega, by omega⟩
  rw [if_pos (by omega)]
  exact ⟨_, _, rfl, by omega, by omega⟩

theorem leads_three (h : 0x7ff < n) (hn : n ≤ 0xffff) (hvalid : n < 0xd800 ∨ 0xdfff < n) :
    Leads (Char.ofNat n) [UInt8.ofNat (n / 4096 % 16 + 224), UInt8.ofNat (n / 64 % 64 + 128),
      UInt8.ofNat (n % 64 + 128)] := by
  have hlead : (UInt8.ofNat (n / 4096 % 16 + 224)).toNat = n / 4096 + 224 := by
    rw [toNat_ofNat (by omega)]
    omega
  obtain ⟨low, high, hranges, hfirst⟩ := followers_three h hn hvalid
  rw [← toNat_follower] at hfirst
  refine ⟨_, _, _, rfl, hlead ▸ hranges, .cons hfirst (.cons (follower_within n) .nil), ?_⟩
  rw [charOfBytes_three, hlead, toNat_follower, toNat_follower]
  congr 1
  omega

/-- The lowest row and the highest one leave out a part of the followers. -/
theorem followers_four (h : 0xffff < n) (hn : n < 0x110000) :
    ∃ low high, followers (n / 262144 + 240) =
        some [(low, high), (0x80, 0xbf), (0x80, 0xbf)] ∧
      low ≤ n / 4096 % 64 + 128 ∧ n / 4096 % 64 + 128 ≤ high := by
  simp only [followers, beq_iff_eq]
  rw [if_neg (by omega), if_neg (by omega), if_neg (by omega), if_neg (by omega),
    if_neg (by omega), if_neg (by omega)]
  split
  · exact ⟨_, _, rfl, by omega, by omega⟩
  split
  · exact ⟨_, _, rfl, by omega, by omega⟩
  rw [if_pos (by omega)]
  exact ⟨_, _, rfl, by omega, by omega⟩

theorem leads_four (h : 0xffff < n) (hn : n < 0x110000) :
    Leads (Char.ofNat n) [UInt8.ofNat (n / 262144 % 8 + 240), UInt8.ofNat (n / 4096 % 64 + 128),
      UInt8.ofNat (n / 64 % 64 + 128), UInt8.ofNat (n % 64 + 128)] := by
  have hlead : (UInt8.ofNat (n / 262144 % 8 + 240)).toNat = n / 262144 + 240 := by
    rw [toNat_ofNat (by omega)]
    omega
  obtain ⟨low, high, hranges, hfirst⟩ := followers_four h hn
  rw [← toNat_follower] at hfirst
  refine ⟨_, _, _, rfl, hlead ▸ hranges,
    .cons hfirst (.cons (follower_within _) (.cons (follower_within n) .nil)), ?_⟩
  rw [charOfBytes_four, hlead, toNat_follower, toNat_follower, toNat_follower]
  congr 1
  omega

end Sizes

theorem leads_utf8EncodeChar (c : Char) : Leads c (String.utf8EncodeChar c) := by
  have hvalid : c.toNat < 0xd800 ∨ 0xdfff < c.toNat ∧ c.toNat < 0x110000 := c.valid
  have hchar := Char.ofNat_toNat c
  have hval : c.val.toNat = c.toNat := rfl
  simp only [String.utf8EncodeChar, hval]
  generalize c.toNat = n at hvalid hchar ⊢
  subst hchar
  split
  · rename_i h
    exact leads_one h
  split
  · rename_i h hn
    exact leads_two (by omega) hn
  split
  · rename_i h hn
    exact leads_three (by omega) hn (by omega)
  · rename_i h
    exact leads_four (by omega) (by omega)

/-! Whole texts -/

theorem piecesFrom_utf8 (s : List Char) : piecesFrom [] [] (utf8 s) = s.map .char := by
  induction s with
  | nil => rfl
  | cons c rest ih =>
    obtain ⟨lead, more, ranges, hbytes, hlead, hmore, hchar⟩ := leads_utf8EncodeChar c
    rw [utf8, List.flatMap_cons, hbytes, piecesFrom_lead hlead hmore, ← hbytes, hchar]
    exact congrArg (_ :: ·) ih

/-- A text is what its bytes are read as. -/
theorem lossy_utf8 (s : String) : lossy (piecesOfBytes (utf8 s.toList)) = s := by
  rw [piecesOfBytes, piecesFrom_utf8, lossy, List.map_map]
  have hshown : Piece.shown ∘ Piece.char = id := rfl
  rw [hshown, List.map_id, String.ofList_toList]

end Bindery.Text
