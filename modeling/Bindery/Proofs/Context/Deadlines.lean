import Bindery.Proofs.Context.History

/-!
# Deadlines only tighten

The deadline of a context is the earliest of the times that were set for it and for its ancestors.
So it does not matter in which order they were set, and no context goes on for longer than one that
it was derived from.
-/
namespace Bindery

/-- Which one of some times is the earliest, if there are any. -/
def Earliest (times : Set Nat) : Option Nat → Prop
  | none => times = ∅
  | some time => IsLeast times time

namespace Earliest

variable {times : Set Nat} {d d' : Option Nat} {time : Nat}

theorem eq_none_iff (h : Earliest times d) : d = none ↔ ∀ t, t ∉ times := by
  cases d with
  | none => exact iff_of_true rfl (Set.eq_empty_iff_forall_notMem.1 h)
  | some m => exact iff_of_false (Option.some_ne_none m) fun hnone => hnone m h.1

theorem eq_some_iff (h : Earliest times d) : d = some time ↔ IsLeast times time := by
  cases d with
  | none =>
    refine iff_of_false (by simp) fun hleast => ?_
    exact Set.notMem_empty time ((show times = ∅ from h) ▸ hleast.1)
  | some m =>
    rw [Option.some.injEq]
    exact ⟨fun heq => heq ▸ h, fun hleast => IsLeast.unique h hleast⟩

theorem unique (h : Earliest times d) (h' : Earliest times d') : d = d' := by
  cases d' with
  | none => exact h.eq_none_iff.2 (Set.eq_empty_iff_forall_notMem.1 h')
  | some m => exact h.eq_some_iff.2 h'

/-- With one more time the earliest is the tighter one. -/
theorem insert (h : Earliest times d) (time : Nat) :
    Earliest (insert time times) (some (Context.tighter d time)) := by
  cases d with
  | none =>
    rw [show times = ∅ from h, insert_empty_eq]
    exact isLeast_singleton
  | some m =>
    have hmin : Context.tighter (some m) time = min time m := by
      change (if m < time then m else time) = _
      split <;> omega
    rw [hmin]
    exact IsLeast.insert time h

end Earliest

namespace Context

/-- The time that a derivation sets, if it sets one. -/
def limit? (now : Nat) : Derivation → Option Nat
  | .withDeadline time => some time
  | .withTimeout span => some (now + span)
  | _ => none

/-- Whether the time that a derivation sets can be told by the clock. -/
def IsRepresentable (now : Nat) : Derivation → Prop
  | .withTimeout span => now + span < endOfTime
  | _ => True

variable {c made : Context} {now fresh : Nat} {d : Derivation}

theorem exists_derive?_iff :
    (∃ made, c.derive? now fresh d = some made) ↔ IsRepresentable now d := by
  cases d with
  | withTimeout span =>
    rw [derive?, IsRepresentable]
    split
    · rename_i hend
      exact iff_of_false (by simp) (Nat.not_lt.2 hend)
    · rename_i hend
      exact iff_of_true ⟨_, rfl⟩ (Nat.lt_of_not_le hend)
  | _ => exact iff_of_true ⟨_, rfl⟩ trivial

theorem deadline_background (h : c.derive? now fresh .background = some made) :
    made.deadline = none := by
  cases h
  rfl

/-- A derivation that sets no time keeps the deadline. -/
theorem deadline_kept (h : c.derive? now fresh d = some made) (hd : d ≠ .background)
    (hlimit : limit? now d = none) : made.deadline = c.deadline := by
  cases d with
  | background => exact absurd rfl hd
  | clone =>
    cases h
    rfl
  | child =>
    cases h
    rfl
  | withDeadline time => cases hlimit
  | withTimeout span => cases hlimit

/-- One that sets a time tightens it. -/
theorem deadline_tightened (h : c.derive? now fresh d = some made) {time : Nat}
    (hlimit : limit? now d = some time) :
    made.deadline = some (tighter c.deadline time) := by
  cases d with
  | withDeadline t =>
    cases hlimit
    cases h
    rfl
  | withTimeout span =>
    cases hlimit
    rw [derive?] at h
    split at h
    · cases h
    · cases h
      rfl
  | _ => cases hlimit

end Context

namespace Contexts

open Context (limit? IsRepresentable)

variable {ops : List Operation} {cs : Contexts} {j k now : Nat} {d : Derivation}

/-- The time at which each context was made. -/
def times (ops : List Operation) : List Nat :=
  0 :: ops.filterMap fun
    | .derive now _ _ => some now
    | .cancel _ => none

theorem times_derive (ops : List Operation) (now index : Nat) (d : Derivation) :
    times (ops ++ [.derive now index d]) = times ops ++ [now] := by simp [times]

theorem times_cancel (ops : List Operation) (index : Nat) :
    times (ops ++ [.cancel index]) = times ops := by simp [times]

theorem length_times (ops : List Operation) : (times ops).length = (origins ops).length := by
  induction ops using List.reverseRecOn with
  | nil => rfl
  | append_singleton ops op ih =>
    cases op with
    | derive now index d => simp [times_derive, origins_derive, ih]
    | cancel index => rw [times_cancel, origins_cancel, ih]

/-- The context was made with a deadline at the time, or with a timeout that ends then. -/
def Limit (ops : List Operation) (k time : Nat) : Prop :=
  ∃ j d now, Made ops j k d ∧ (times ops)[k]? = some now ∧ limit? now d = some time

/-- The context or one of its ancestors was made with a time. -/
def Limited (ops : List Operation) (k time : Nat) : Prop :=
  ∃ a, Ancestor ops a k ∧ Limit ops a time

/-! How contexts came about -/

/-- Each context is what its derivation made from the one it was derived from. -/
structure Dated (ops : List Operation) (cs : Contexts) : Prop where
  length : cs.made.length = (origins ops).length
  made : ∀ k c, cs.made[k]? = some c → ∃ j d now c', Made ops j k d ∧
    (times ops)[k]? = some now ∧ cs.made[j]? = some c' ∧ c'.derive? now k d = some c ∧
    (d ≠ .background → j < k)

theorem dated_start : Dated [] start where
  length := rfl
  made k c hc := by
    cases k with
    | zero => exact ⟨0, .background, 0, c, rfl, rfl, hc, hc, fun h => absurd rfl h⟩
    | succ k => cases hc

namespace Dated

theorem derive (h : Dated ops cs) {index : Nat} {c made : Context}
    (hc : cs.made[index]? = some c) (hmade : c.derive? now cs.made.length d = some made) :
    Dated (ops ++ [.derive now index d]) ⟨cs.made ++ [made], cs.set⟩ := by
  have hold : ∀ {k : Nat} {x : Context}, cs.made[k]? = some x →
      (cs.made ++ [made])[k]? = some x := fun hx => by
    rw [List.getElem?_append_left (List.getElem?_eq_some_iff.1 hx).1]
    exact hx
  refine ⟨by simp [origins_derive, h.length], fun k x hx => ?_⟩
  simp only [Made, origins_derive, times_derive]
  rcases Nat.lt_trichotomy k cs.made.length with hk | rfl | hk
  · rw [List.getElem?_append_left hk] at hx
    obtain ⟨j, d', now', c', horigin, htime, hc', hderive, hlt⟩ := h.made k x hx
    refine ⟨j, d', now', c', ?_, ?_, hold hc', hderive, hlt⟩
    · rw [List.getElem?_append_left (h.length ▸ hk)]
      exact horigin
    · rw [List.getElem?_append_left (by rwa [length_times, ← h.length])]
      exact htime
  · refine ⟨index, d, now, c, ?_, ?_, hold hc, ?_, fun _ => (List.getElem?_eq_some_iff.1 hc).1⟩
    · rw [h.length, List.getElem?_append_right (Nat.le_refl _), Nat.sub_self]
      rfl
    · rw [h.length, ← length_times, List.getElem?_append_right (Nat.le_refl _), Nat.sub_self]
      rfl
    · rw [List.getElem?_append_right (Nat.le_refl _), Nat.sub_self] at hx
      obtain rfl : made = x := Option.some.inj hx
      exact hmade
  · rw [List.getElem?_eq_none (by simpa using Nat.succ_le_of_lt hk)] at hx
    cases hx

theorem perform? (h : Dated ops cs) {op : Operation} {cs' : Contexts}
    (hstep : cs.perform? op = some cs') : Dated (ops ++ [op]) cs' := by
  rcases perform?_cases hstep with
    ⟨now, index, d, c, made, rfl, hc, hmade, rfl⟩ | ⟨index, c, rfl, hc, rfl⟩
  · exact h.derive hc hmade
  · refine ⟨by rw [origins_cancel]; exact h.length, fun k x hx => ?_⟩
    simp only [Made, origins_cancel, times_cancel]
    exact h.made k x hx

end Dated

theorem dated_of_run? (h : start.run? ops = some cs) : Dated ops cs := by
  induction ops using List.reverseRecOn generalizing cs with
  | nil =>
    cases h
    exact dated_start
  | append_singleton ops op ih =>
    obtain ⟨mid, hmid, hstep⟩ := run?_concat.1 h
    exact (ih hmid).perform? hstep

/-! Times along a lineage -/

theorem limit_iff (hmade : Made ops j k d) (htime : (times ops)[k]? = some now) {time : Nat} :
    Limit ops k time ↔ limit? now d = some time := by
  constructor
  · rintro ⟨j', d', now', hmade', htime', hlimit⟩
    obtain ⟨-, rfl⟩ := hmade.unique hmade'
    obtain rfl := Option.some.inj (htime.symm.trans htime')
    exact hlimit
  · exact fun hlimit => ⟨j, d, now, hmade, htime, hlimit⟩

theorem limited_derived (hmade : Made ops j k d) (hd : d ≠ .background) {time : Nat} :
    Limited ops k time ↔ Limit ops k time ∨ Limited ops j time := by
  simp only [Limited, ancestor_derived hmade hd, or_and_right, exists_or, exists_eq_left]

theorem limited_background (hmade : Made ops j k .background) (time : Nat) :
    ¬ Limited ops k time := by
  rintro ⟨a, ha, j', d', now, hmade', -, hlimit⟩
  obtain rfl := (ancestor_background hmade).1 ha
  obtain ⟨-, rfl⟩ := hmade.unique hmade'
  cases hlimit

theorem limited_of_ancestor {a time : Nat} (ha : Ancestor ops a k) (h : Limited ops a time) :
    Limited ops k time := by
  obtain ⟨b, hb, hlimit⟩ := h
  exact ⟨b, hb.trans ha, hlimit⟩

/-- The deadline of a context is the earliest time of its lineage. -/
theorem Dated.earliest (h : Dated ops cs) {c : Context} (hc : cs.made[k]? = some c) :
    Earliest {time | Limited ops k time} c.deadline := by
  induction k using Nat.strong_induction_on generalizing c with
  | _ k ih =>
    obtain ⟨j, d, now, c', hmade, htime, hc', hderive, hlt⟩ := h.made k c hc
    by_cases hd : d = .background
    · subst hd
      rw [Context.deadline_background hderive]
      exact Set.eq_empty_iff_forall_notMem.2 (limited_background hmade)
    · have hparent := ih j (hlt hd) hc'
      cases hlimit : limit? now d with
      | none =>
        have hsame : {time | Limited ops k time} = {time | Limited ops j time} := by
          ext time
          simp [limited_derived hmade hd, limit_iff hmade htime, hlimit]
        rw [Context.deadline_kept hderive hd hlimit, hsame]
        exact hparent
      | some time =>
        have hmore : {t | Limited ops k t} = insert time {t | Limited ops j t} := by
          ext t
          simp [limited_derived hmade hd, limit_iff hmade htime, hlimit, eq_comm]
        rw [Context.deadline_tightened hderive hlimit, hmore]
        exact hparent.insert time

/-- A context can be made from any other as long as the clock can tell its deadline. -/
theorem exists_perform?_derive_iff :
    (∃ cs', cs.perform? (.derive now k d) = some cs') ↔
      k < cs.made.length ∧ IsRepresentable now d := by
  simp only [Contexts.perform?, derive?_eq_some_iff]
  constructor
  · rintro ⟨_, c, made, hc, hmade, -⟩
    exact ⟨(List.getElem?_eq_some_iff.1 hc).1, Context.exists_derive?_iff.1 ⟨made, hmade⟩⟩
  · rintro ⟨hk, hd⟩
    obtain ⟨made, hmade⟩ := Context.exists_derive?_iff.2 hd
    exact ⟨_, _, made, List.getElem?_eq_getElem hk, hmade, rfl⟩

/-- After any history a context has no deadline if no time was set along its lineage, and else the
earliest one of those that were. So a context ends no later than its ancestors, and contexts with
the same times end together, whatever the order in which the times were set. A context can always
be made as long as the clock can tell when its timeout ends. -/
theorem deadlines_only_tighten (h : start.run? ops = some cs) :
    (∀ k c, cs.made[k]? = some c →
      (c.deadline = none ↔ ∀ time, ¬ Limited ops k time) ∧
      ∀ time, c.deadline = some time ↔ IsLeast {t | Limited ops k t} time) ∧
    (∀ a k x c, Ancestor ops a k → cs.made[a]? = some x → cs.made[k]? = some c →
      ∀ time ∈ x.deadline, ∃ earlier ∈ c.deadline, earlier ≤ time) ∧
    (∀ ops' cs', start.run? ops' = some cs' → ∀ (k k' : Nat) (c c' : Context),
      cs.made[k]? = some c → cs'.made[k']? = some c' →
      (∀ time, Limited ops k time ↔ Limited ops' k' time) → c.deadline = c'.deadline) ∧
    ∀ now k d, (∃ cs', cs.perform? (.derive now k d) = some cs') ↔
      k < cs.made.length ∧ IsRepresentable now d := by
  have hdated := dated_of_run? h
  refine ⟨fun k c hc => ?_, fun a k x c ha hx hc time htime => ?_,
    fun ops' cs' h' k k' c c' hc hc' hsame => ?_, fun now k d => exists_perform?_derive_iff⟩
  · have hearliest := hdated.earliest hc
    exact ⟨hearliest.eq_none_iff, fun time => hearliest.eq_some_iff⟩
  · have hleast := (hdated.earliest hx).eq_some_iff.1 htime
    have hmem := limited_of_ancestor ha hleast.1
    cases hdeadline : c.deadline with
    | none => exact absurd hmem ((hdated.earliest hc).eq_none_iff.1 hdeadline time)
    | some earlier =>
      exact ⟨earlier, rfl, ((hdated.earliest hc).eq_some_iff.1 hdeadline).2 hmem⟩
  · have hearliest := (dated_of_run? h').earliest hc'
    have htimes : {time | Limited ops k time} = {time | Limited ops' k' time} := Set.ext hsame
    exact (hdated.earliest hc).unique (htimes ▸ hearliest)

/-- Contexts 3 and 5 have the same two times, set in different orders. -/
def crossing : List Operation := [.derive 0 0 (.withDeadline 50), .derive 5 1 .child,
  .derive 10 2 (.withTimeout 20), .derive 12 0 (.withTimeout 18), .derive 13 4 (.withDeadline 50)]

theorem crossing_deadlines : ∃ cs, start.run? crossing = some cs ∧
    cs.made.map (·.deadline) = [none, some 50, some 50, some 30, some 30, some 30] ∧
    IsLeast {time | Limited crossing 3 time} 30 ∧ IsLeast {time | Limited crossing 5 time} 30 ∧
    (∀ time, ¬ Limited crossing 0 time) ∧
    ∃ cs', cs.perform? (.derive 20 3 (.withTimeout 40)) = some cs' := by
  obtain ⟨cs, h⟩ : ∃ cs, start.run? crossing = some cs := ⟨_, rfl⟩
  obtain ⟨hdeadline, -, -, hstep⟩ := deadlines_only_tighten h
  cases h
  exact ⟨_, rfl, rfl, ((hdeadline 3 _ rfl).2 30).1 rfl, ((hdeadline 5 _ rfl).2 30).1 rfl,
    (hdeadline 0 _ rfl).1.1 rfl, (hstep 20 3 _).2 ⟨by decide, show 20 + 40 < endOfTime by decide⟩⟩

end Contexts

end Bindery
