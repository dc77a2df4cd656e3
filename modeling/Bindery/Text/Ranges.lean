/-!
# Sets of characters

A property of characters is a sorted list of code point intervals.
-/
namespace Bindery.Text

/-- Disjoint inclusive intervals of code points, in increasing order. -/
abbrev Ranges := List (Nat × Nat)

/-- Membership; the search stops at the first interval that starts above the code point. -/
def Ranges.has : Ranges → Nat → Bool
  | [], _ => false
  | (low, high) :: rest, n => if n < low then false else n ≤ high || Ranges.has rest n

/-- A found code point lies in one of the intervals. -/
theorem Ranges.exists_of_has {r : Ranges} {n : Nat} (h : r.has n = true) :
    ∃ p ∈ r, p.1 ≤ n ∧ n ≤ p.2 := by
  induction r with
  | nil => simp [Ranges.has] at h
  | cons p rest ih =>
    obtain ⟨low, high⟩ := p
    simp only [Ranges.has] at h
    split at h
    · simp at h
    · rcases Bool.or_eq_true _ _ ▸ h with hh | hh
      · exact ⟨(low, high), by simp, by simp at hh ⊢; omega⟩
      · obtain ⟨q, hq, hb⟩ := ih hh
        exact ⟨q, by simp [hq], hb⟩

end Bindery.Text
