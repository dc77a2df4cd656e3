import Bindery.Catalog.Basic
import Mathlib

/-!
# Cutting texts

Cutting a text at a character and joining the pieces with it undo each other. The last occurrence of
a character cuts a text in two.
-/
namespace Bindery

namespace Text

variable {p : Char → Bool} {c : Char}

theorem splitBy_all {s : List Char} : ∀ piece ∈ splitBy p s, ∀ c ∈ piece, p c = false := by
  induction s with
  | nil => simp [splitBy]
  | cons c rest ih =>
    unfold splitBy
    split
    · simpa using ih
    · rename_i hc
      split
      · simpa using hc
      · rename_i piece more hsplit
        rw [hsplit] at ih
        intro q hq d hd
        rcases List.mem_cons.1 hq with rfl | hq
        · rcases List.mem_cons.1 hd with rfl | hd
          · simpa using hc
          · exact ih piece (by simp) d hd
        · exact ih q (by simp [hq]) d hd

theorem splitBy_ne_nil (s : List Char) : splitBy p s ≠ [] := by
  cases s with
  | nil => simp [splitBy]
  | cons c rest =>
    rw [splitBy]
    split
    · simp
    · split <;> simp

theorem splitBy_of_all {s : List Char} (h : ∀ d ∈ s, p d = false) : splitBy p s = [s] := by
  induction s with
  | nil => rfl
  | cons d rest ih =>
    have hd : p d = false := h d (by simp)
    have hrest := ih fun x hx => h x (by simp [hx])
    simp [splitBy, hd, hrest]

/-- What is no separator stands in a piece. -/
theorem exists_mem_splitBy {s : List Char} {d : Char} (hd : d ∈ s)
    (hp : p d = false) : ∃ w ∈ splitBy p s, d ∈ w := by
  induction s with
  | nil => cases hd
  | cons e rest ih =>
    obtain ⟨piece, more, hsplit⟩ := List.exists_cons_of_ne_nil (splitBy_ne_nil (p := p) rest)
    rw [splitBy, hsplit]
    rcases List.mem_cons.1 hd with rfl | hd
    · exact ⟨d :: piece, by simp [hp], by simp⟩
    · obtain ⟨w, hw, hdw⟩ := ih hd
      rw [hsplit] at hw
      split
      · exact ⟨w, List.mem_cons_of_mem _ hw, hdw⟩
      · rcases List.mem_cons.1 hw with rfl | hw
        · exact ⟨e :: w, by simp, by simp [hdw]⟩
        · exact ⟨w, List.mem_cons_of_mem _ hw, hdw⟩

theorem splitBy_append (hc : p c = true) (s t : List Char) :
    splitBy p (s ++ c :: t) = splitBy p s ++ splitBy p t := by
  induction s with
  | nil => simp [splitBy, hc]
  | cons d rest ih =>
    rw [List.cons_append, splitBy, splitBy, ih]
    cases hd : p d with
    | true => simp
    | false =>
      obtain ⟨piece, more, hsplit⟩ := List.exists_cons_of_ne_nil (splitBy_ne_nil (p := p) rest)
      simp [hsplit]

theorem not_mem_of_mem_splitBy {s w : List Char} (h : w ∈ splitBy (· == c) s) : c ∉ w := by
  intro hc
  simpa using splitBy_all w h c hc

theorem splitBy_intercalate {ws : List (List Char)} (hne : ws ≠ []) (h : ∀ w ∈ ws, c ∉ w) :
    splitBy (· == c) ([c].intercalate ws) = ws := by
  induction ws with
  | nil => exact absurd rfl hne
  | cons w rest ih =>
    have hw : splitBy (· == c) w = [w] := by
      refine splitBy_of_all fun d hd => ?_
      exact beq_eq_false_iff_ne.2 fun e => h w (by simp) (e ▸ hd)
    by_cases hrest : rest = []
    · subst hrest
      simpa using hw
    · have hmore := ih hrest fun x hx => h x (by simp [hx])
      rw [List.intercalate_cons_of_ne_nil hrest, List.append_assoc, List.singleton_append,
        splitBy_append (by simp), hw, hmore]
      rfl

theorem intercalate_splitBy (c : Char) (s : List Char) :
    [c].intercalate (splitBy (· == c) s) = s := by
  induction s with
  | nil => simp [splitBy]
  | cons d rest ih =>
    obtain ⟨piece, more, hsplit⟩ :=
      List.exists_cons_of_ne_nil (splitBy_ne_nil (p := (· == c)) rest)
    rw [splitBy]
    rw [hsplit] at ih ⊢
    split
    · rename_i hd
      rw [List.intercalate_cons_of_ne_nil (by simp), ih, beq_iff_eq.1 hd]
      simp
    · by_cases hmore : more = []
      · subst hmore
        simpa using ih
      · rw [List.intercalate_cons_of_ne_nil hmore] at ih ⊢
        rw [← ih]
        simp

end Text

theorem splitLast?_append {c : Char} (front : List Char) {back : List Char} (h : c ∉ back) :
    splitLast? c (front ++ c :: back) = some (front, back) := by
  have hback : ∀ d ∈ back.reverse, (d != c) = true := by
    intro d hd
    exact bne_iff_ne.2 fun e => h (e ▸ List.mem_reverse.1 hd)
  have hafter : ((front ++ c :: back).reverse.takeWhile (· != c)).reverse = back := by
    rw [List.reverse_append, List.reverse_cons, List.append_assoc, List.singleton_append,
      List.takeWhile_append_of_pos hback]
    simp
  have hbefore : (front ++ c :: back).length - back.length - 1 = front.length := by
    simp only [List.length_append, List.length_cons]
    omega
  rw [splitLast?, if_pos (by simp), hafter]
  dsimp only
  rw [hbefore, List.take_left]

theorem splitLast?_eq_some_iff {c : Char} {s front back : List Char} :
    splitLast? c s = some (front, back) ↔ s = front ++ c :: back ∧ c ∉ back := by
  constructor
  · intro h
    by_cases hmem : c ∈ s
    · -- the first occurrence from the back is the last one
      obtain ⟨rback, rfront, hs, hfree⟩ := List.eq_append_cons_of_mem (List.mem_reverse.2 hmem)
      have hs' : s = rfront.reverse ++ c :: rback.reverse := by
        simpa using congrArg List.reverse hs
      have hfree' : c ∉ rback.reverse := by simpa using hfree
      rw [hs', splitLast?_append _ hfree'] at h
      simp only [Option.some.injEq, Prod.mk.injEq] at h
      obtain ⟨rfl, rfl⟩ := h
      exact ⟨hs', hfree'⟩
    · rw [splitLast?, if_neg (by simpa using hmem)] at h
      cases h
  · rintro ⟨rfl, hback⟩
    exact splitLast?_append front hback

end Bindery
