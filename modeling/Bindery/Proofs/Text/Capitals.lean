import Bindery.Text.Case
import Mathlib

/-!
# Capitals

The uppercase form of a character consists of characters that are their own uppercase form, and of
no mark between the words of a name. This is a fact about the table alone: what it maps to lies
outside of what it maps.
-/
namespace Bindery.Text

/-- A character that parts the words of a name. -/
def IsMark (c : Char) : Prop := c = '.' ∨ c = '_'

/-- A character that is its own uppercase form, and no mark. -/
structure Capital (c : Char) : Prop where
  kept : upper c = [c]
  unmarked : ¬ IsMark c

/-! Runs -/

theorem Run.has_iff {r : Run} {n : Nat} :
    r.has n = true ↔ r.low ≤ n ∧ n ≤ r.high ∧ (n - r.low) % r.step = 0 := by
  simp only [Run.has, Bool.and_eq_true, decide_eq_true_eq, beq_iff_eq, and_assoc]

/-- Whether no code point of the first run lies in the second one. Most runs are told apart by their
ends. -/
def Run.apart (r r' : Run) : Bool :=
  Nat.blt r.high r'.low || Nat.blt r'.high r.low ||
    (List.range (r.high - r.low + 1)).all fun k => k % r.step != 0 || !r'.has (r.low + k)

theorem Run.has_eq_false_of_apart {r r' : Run} (h : r.apart r' = true) {n : Nat}
    (hn : r.has n = true) : r'.has n = false := by
  obtain ⟨hlow, hhigh, hstep⟩ := Run.has_iff.1 hn
  simp only [Run.apart, Bool.or_eq_true, Nat.blt_eq, List.all_eq_true, List.mem_range] at h
  refine Bool.eq_false_iff.2 fun hn' => ?_
  obtain ⟨hlow', hhigh', -⟩ := Run.has_iff.1 hn'
  rcases h with (h | h) | h
  · omega
  · omega
  · have hsum : r.low + (n - r.low) = n := by omega
    have hout := h (n - r.low) (by omega)
    simp [hsum, hstep, hn'] at hout

/-- The code points that a shift leads to. -/
def Shift.image (s : Shift) : Run := ⟨s.target, s.target + (s.run.high - s.run.low), s.run.step⟩

theorem Shift.image_has {s : Shift} {n : Nat} (h : s.run.has n = true) :
    s.image.has (s.target + (n - s.run.low)) = true := by
  obtain ⟨hlow, hhigh, hstep⟩ := Run.has_iff.1 h
  have hsub : s.target + (n - s.run.low) - s.target = n - s.run.low := by omega
  have hle : s.target + (n - s.run.low) ≤ s.target + (s.run.high - s.run.low) := by omega
  refine Run.has_iff.2 ⟨Nat.le_add_right _ _, hle, ?_⟩
  change (s.target + (n - s.run.low) - s.target) % s.run.step = 0
  rw [hsub]
  exact hstep

/-! Mappings -/

section

variable {specials : List (Nat × List Nat)} {shifts : List Shift} {c : Char}

theorem mapCase_eq_self (hspecials : specials.lookup c.toNat = none)
    (hshifts : ∀ s ∈ shifts, s.run.has c.toNat = false) : mapCase specials shifts c = [c] := by
  have hfind : shifts.find? (·.run.has c.toNat) = none := by
    refine List.find?_eq_none.2 fun s hs => ?_
    simp [hshifts s hs]
  simp only [mapCase, hspecials, hfind]

/-- A character is mapped by a special, by a shift, or not at all. -/
theorem mapCase_cases (specials : List (Nat × List Nat)) (shifts : List Shift) (c : Char) :
    (∃ ns, (c.toNat, ns) ∈ specials ∧ mapCase specials shifts c = ns.map Char.ofNat) ∨
    (∃ s ∈ shifts, s.run.has c.toNat = true ∧
      mapCase specials shifts c = [Char.ofNat (s.target + (c.toNat - s.run.low))]) ∨
    mapCase specials shifts c = [c] := by
  cases hlookup : specials.lookup c.toNat with
  | some ns =>
    obtain ⟨front, back, hsplit, -⟩ := List.lookup_eq_some_iff.1 hlookup
    exact .inl ⟨ns, by simp [hsplit], by simp only [mapCase, hlookup]⟩
  | none =>
    cases hfind : shifts.find? (·.run.has c.toNat) with
    | some s =>
      have hhas : s.run.has c.toNat = true := by simpa using List.find?_some hfind
      exact .inr (.inl ⟨s, List.mem_of_find?_eq_some hfind, hhas,
        by simp only [mapCase, hlookup, hfind]⟩)
    | none => exact .inr (.inr (by simp only [mapCase, hlookup, hfind]))

end

/-! The uppercase table -/

/-- One code point. -/
def Run.point (n : Nat) : Run := ⟨n, n, 1⟩

theorem Run.ne_of_apart_point {r : Run} {m n : Nat} (h : r.apart (.point m) = true)
    (hn : r.has n = true) : n ≠ m := by
  rintro rfl
  have hout := has_eq_false_of_apart h hn
  simp [point, has] at hout

/-- Whether a run holds characters that have no other uppercase form, and no mark. -/
def Run.settled (r : Run) : Bool :=
  (upperShifts.all fun s => r.apart s.run) && (upperSpecials.all fun p => r.apart (.point p.1)) &&
    (['.', '_'].all fun c => r.apart (.point c.toNat)) &&
    (Nat.blt r.high 0xd800 || Nat.blt 0xdfff r.low && Nat.blt r.high 0x110000)

/-! What the table leads to is settled. -/

theorem image_settled : ∀ s ∈ upperShifts, s.image.settled = true := by decide +kernel

theorem specials_settled :
    ∀ p ∈ upperSpecials, (!p.2.isEmpty && p.2.all fun n => (Run.point n).settled) = true := by
  decide +kernel

/-- What is settled is capital. -/
theorem capital_of_settled {r : Run} {n : Nat} (h : r.settled = true) (hn : r.has n = true) :
    Capital (Char.ofNat n) := by
  obtain ⟨hlow, hhigh, -⟩ := Run.has_iff.1 hn
  simp only [Run.settled, Bool.and_eq_true, Bool.or_eq_true, Nat.blt_eq] at h
  obtain ⟨⟨⟨hshifts, hspecials⟩, hmarks⟩, hends⟩ := h
  have hvalid : n.isValidChar := hends.imp (by omega) (by omega)
  have hcode : (Char.ofNat n).toNat = n := by rw [Char.toNat_ofNat, if_pos hvalid]
  refine ⟨mapCase_eq_self ?_ fun s hs => ?_, fun hmark => ?_⟩
  · refine List.lookup_eq_none_iff.2 fun p hp => ?_
    rw [hcode, bne_iff_ne]
    exact Run.ne_of_apart_point (List.all_eq_true.1 hspecials p hp) hn
  · rw [hcode]
    exact Run.has_eq_false_of_apart (List.all_eq_true.1 hshifts s hs) hn
  · have hmem : Char.ofNat n ∈ ['.', '_'] := by simpa [IsMark] using hmark
    exact Run.ne_of_apart_point (List.all_eq_true.1 hmarks _ hmem) hn hcode.symm

/-- The uppercase form of a character that is no mark consists of capitals. -/
theorem capital_of_mem_upper {c d : Char} (hc : ¬ IsMark c) (hd : d ∈ upper c) : Capital d := by
  rcases mapCase_cases upperSpecials upperShifts c with ⟨ns, hns, h⟩ | ⟨s, hs, hhas, h⟩ | h
  · rw [upper, h] at hd
    obtain ⟨n, hn, rfl⟩ := List.mem_map.1 hd
    have hall := (Bool.and_eq_true_iff.1 (specials_settled _ hns)).2
    exact capital_of_settled (List.all_eq_true.1 hall n hn) (by simp [Run.point, Run.has])
  · rw [upper, h, List.mem_singleton] at hd
    subst hd
    exact capital_of_settled (image_settled s hs) (Shift.image_has hhas)
  · obtain rfl : d = c := by simpa [upper, h] using hd
    exact ⟨h, hc⟩

theorem upper_ne_nil (c : Char) : upper c ≠ [] := by
  rcases mapCase_cases upperSpecials upperShifts c with ⟨ns, hns, h⟩ | ⟨s, -, -, h⟩ | h
  · have hne := (Bool.and_eq_true_iff.1 (specials_settled _ hns)).1
    simpa [upper, h] using hne
  · simp [upper, h]
  · simp [upper, h]

end Bindery.Text
