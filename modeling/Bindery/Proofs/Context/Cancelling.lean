import Bindery.Proofs.Context.History

/-!
# Cancellation follows the lineage

A context counts as cancelled exactly if it, one that shares its mark, or an ancestor was cancelled,
be that before or after it was made. So cancelling reaches neither ancestors nor siblings.
-/
namespace Bindery

namespace Mark

/-- The mark itself, the one it was made from, and so on. -/
def ids : Mark → List Nat
  | .root n => [n]
  | .child n parent => n :: parent.ids

theorem isSet_iff {set : List Nat} (m : Mark) : m.isSet set = true ↔ ∃ n ∈ m.ids, n ∈ set := by
  induction m with
  | root n => simp [isSet, ids]
  | child n parent ih => simp [isSet, ids, ih]

theorem head?_ids (m : Mark) : m.ids.head? = some m.id := by
  cases m <;> rfl

end Mark

namespace Contexts

/-- The mark of the context that was made from one with the given mark. -/
def madeMark (fresh : Nat) (m : Mark) : Derivation → Mark
  | .background => .root fresh
  | .clone => m
  | _ => .child fresh m

theorem mark_of_derive? {c made : Context} {now fresh : Nat} {d : Derivation}
    (h : c.derive? now fresh d = some made) : made.mark = madeMark fresh c.mark d := by
  cases d with
  | withTimeout span =>
    rw [Context.derive?] at h
    split at h
    · cases h
    · cases h
      rfl
  | _ =>
    cases h
    rfl

theorem madeMark_child {fresh : Nat} {m : Mark} {d : Derivation} (hd : d ≠ .background)
    (hclone : d ≠ .clone) : madeMark fresh m d = .child fresh m := by
  cases d with
  | background => exact absurd rfl hd
  | clone => exact absurd rfl hclone
  | _ => rfl

/-! What a run records -/

/-- The contexts and the marks that a history leads to. -/
structure Recorded (ops : List Operation) (cs : Contexts) : Prop where
  length : cs.made.length = (origins ops).length
  marks : ∀ k c, cs.made[k]? = some c → ∀ j d, Made ops j k d →
    ∃ c', cs.made[j]? = some c' ∧ c.mark = madeMark k c'.mark d ∧ (d ≠ .background → j < k)
  cancelled : ∀ j, .cancel j ∈ ops → j < cs.made.length
  set : ∀ n, n ∈ cs.set ↔ ∃ j c, .cancel j ∈ ops ∧ cs.made[j]? = some c ∧ c.mark.id = n

theorem recorded_start : Recorded [] start where
  length := rfl
  marks k c hc j d hmade := by
    cases k with
    | zero =>
      cases hmade
      cases hc
      exact ⟨_, rfl, rfl, fun h => absurd rfl h⟩
    | succ k => cases hmade
  cancelled j h := absurd h List.not_mem_nil
  set n := by simp [start]

namespace Recorded

variable {ops : List Operation} {cs : Contexts}

theorem derive (h : Recorded ops cs) {now index : Nat} {d : Derivation} {c made : Context}
    (hc : cs.made[index]? = some c) (hmade : c.derive? now cs.made.length d = some made) :
    Recorded (ops ++ [.derive now index d]) ⟨cs.made ++ [made], cs.set⟩ := by
  have hold : ∀ {k : Nat} {x : Context}, cs.made[k]? = some x →
      (cs.made ++ [made])[k]? = some x := fun hx => by
    rw [List.getElem?_append_left (List.getElem?_eq_some_iff.1 hx).1]
    exact hx
  have hops : ∀ {j : Nat}, .cancel j ∈ ops ++ [.derive now index d] ↔ .cancel j ∈ ops := by simp
  refine ⟨by simp [origins_derive, h.length], fun k x hx j d' hj => ?_, fun j hj => ?_,
    fun n => ?_⟩
  · rw [Made, origins_derive] at hj
    rcases Nat.lt_trichotomy k cs.made.length with hk | rfl | hk
    · rw [List.getElem?_append_left hk] at hx
      rw [List.getElem?_append_left (h.length ▸ hk)] at hj
      obtain ⟨c', hc', hmark, hlt⟩ := h.marks k x hx j d' hj
      exact ⟨c', hold hc', hmark, hlt⟩
    · rw [List.getElem?_append_right (Nat.le_refl _)] at hx
      rw [h.length, List.getElem?_append_right (Nat.le_refl _)] at hj
      simp only [Nat.sub_self, List.getElem?_cons_zero, Option.some.injEq] at hx hj
      cases hj
      subst hx
      exact ⟨c, hold hc, mark_of_derive? hmade, fun _ => (List.getElem?_eq_some_iff.1 hc).1⟩
    · rw [List.getElem?_eq_none (by simpa using Nat.succ_le_of_lt hk)] at hx
      cases hx
  · have hlt := h.cancelled j (hops.1 hj)
    simp only [List.length_append, List.length_singleton]
    omega
  · rw [h.set]
    refine exists_congr fun j => ?_
    simp only [hops]
    constructor
    · rintro ⟨x, hj, hx, hn⟩
      exact ⟨x, hj, hold hx, hn⟩
    · rintro ⟨x, hj, hx, hn⟩
      rw [List.getElem?_append_left (h.cancelled j hj)] at hx
      exact ⟨x, hj, hx, hn⟩

theorem cancel (h : Recorded ops cs) {index : Nat} {c : Context}
    (hc : cs.made[index]? = some c) :
    Recorded (ops ++ [.cancel index]) (cs.cancelMark c.mark) := by
  refine ⟨by rw [origins_cancel]; exact h.length, fun k x hx j d hj => ?_, fun j hj => ?_,
    fun n => ?_⟩
  · rw [Made, origins_cancel] at hj
    exact h.marks k x hx j d hj
  · rcases List.mem_append.1 hj with hj | hj
    · exact h.cancelled j hj
    · cases List.mem_singleton.1 hj
      exact (List.getElem?_eq_some_iff.1 hc).1
  · have hset : n ∈ (cs.cancelMark c.mark).set ↔ n = c.mark.id ∨ n ∈ cs.set := List.mem_cons
    rw [hset, h.set]
    constructor
    · rintro (rfl | ⟨j, x, hj, hx, hn⟩)
      · exact ⟨index, c, by simp, hc, rfl⟩
      · exact ⟨j, x, by simp [hj], hx, hn⟩
    · rintro ⟨j, x, hj, hx, hn⟩
      rcases List.mem_append.1 hj with hj | hj
      · exact .inr ⟨j, x, hj, hx, hn⟩
      · cases List.mem_singleton.1 hj
        cases hc.symm.trans hx
        exact .inl hn.symm

/-- A step of a history keeps the record. -/
theorem perform? (h : Recorded ops cs) {op : Operation} {cs' : Contexts}
    (hstep : cs.perform? op = some cs') : Recorded (ops ++ [op]) cs' := by
  rcases perform?_cases hstep with
    ⟨now, index, d, c, made, rfl, hc, hmade, rfl⟩ | ⟨index, c, rfl, hc, rfl⟩
  · exact h.derive hc hmade
  · exact h.cancel hc

end Recorded

/-- A whole history is recorded. -/
theorem recorded_of_run? {ops : List Operation} {cs : Contexts} (h : start.run? ops = some cs) :
    Recorded ops cs := by
  induction ops using List.reverseRecOn generalizing cs with
  | nil =>
    cases h
    exact recorded_start
  | append_singleton ops op ih =>
    obtain ⟨mid, hmid, hstep⟩ := run?_concat.1 h
    exact (ih hmid).perform? hstep

/-! Marks and lineage -/

namespace Recorded

variable {ops : List Operation} {cs : Contexts} (h : Recorded ops cs)
include h

/-- Each context was made from one, in some way. -/
theorem exists_made {k : Nat} {c : Context} (hc : cs.made[k]? = some c) :
    ∃ j d c', Made ops j k d ∧ cs.made[j]? = some c' ∧ c.mark = madeMark k c'.mark d ∧
      (d ≠ .background → j < k) := by
  have hk : k < (origins ops).length := h.length ▸ (List.getElem?_eq_some_iff.1 hc).1
  obtain ⟨c', hc', hmark, hlt⟩ := h.marks k c hc _ _ (List.getElem?_eq_getElem hk)
  exact ⟨_, _, c', List.getElem?_eq_getElem hk, hc', hmark, hlt⟩

theorem exists_context {j k : Nat} {d : Derivation} (hmade : Made ops j k d) :
    ∃ c, cs.made[k]? = some c := by
  have hk : k < cs.made.length := h.length ▸ (List.getElem?_eq_some_iff.1 hmade).1
  exact ⟨_, List.getElem?_eq_getElem hk⟩

theorem mark_clone {j k : Nat} (hmade : Made ops j k .clone) :
    (cs.made[j]?).map (·.mark) = (cs.made[k]?).map (·.mark) := by
  obtain ⟨c, hc⟩ := h.exists_context hmade
  obtain ⟨c', hc', hmark, -⟩ := h.marks k c hc j _ hmade
  rw [hc, hc', Option.map_some, Option.map_some, hmark]
  rfl

theorem mark_sharing {j k : Nat} (hshare : Sharing ops j k) :
    (cs.made[j]?).map (·.mark) = (cs.made[k]?).map (·.mark) := by
  induction hshare with
  | rel j k hmade => exact h.mark_clone hmade
  | refl k => rfl
  | symm j k _ ih => exact ih.symm
  | trans i j k _ _ hij hjk => exact hij.trans hjk

/-- A context shares its mark with the one that the mark was made for. -/
theorem sharing_id {k : Nat} {c : Context} (hc : cs.made[k]? = some c) :
    Sharing ops c.mark.id k := by
  induction k using Nat.strong_induction_on generalizing c with
  | _ k ih =>
    obtain ⟨j, d, c', hmade, hc', hmark, hlt⟩ := h.exists_made hc
    rw [hmark]
    cases d with
    | clone => exact (ih j (hlt (by simp)) hc').trans _ _ _ (.rel _ _ hmade)
    | _ => exact .refl k

theorem sharing_iff {j k : Nat} {c c' : Context} (hc : cs.made[j]? = some c)
    (hc' : cs.made[k]? = some c') : Sharing ops j k ↔ c.mark.id = c'.mark.id := by
  constructor
  · intro hshare
    have hmark := h.mark_sharing hshare
    rw [hc, hc'] at hmark
    exact congrArg Mark.id (Option.some.inj hmark)
  · intro hid
    have hj := h.sharing_id hc
    rw [hid] at hj
    exact hj.symm.trans _ _ _ (h.sharing_id hc')

/-- The marks that a context's mark was made from are those of its ancestors. -/
theorem mem_ids_iff {k : Nat} {c : Context} (hc : cs.made[k]? = some c) {n : Nat} :
    n ∈ c.mark.ids ↔ ∃ a c', Ancestor ops a k ∧ cs.made[a]? = some c' ∧ c'.mark.id = n := by
  induction k using Nat.strong_induction_on generalizing c with
  | _ k ih =>
    obtain ⟨j, d, c', hmade, hc', hmark, hlt⟩ := h.exists_made hc
    have hself : ∀ {P : Nat → Context → Prop},
        (∃ a x, a = k ∧ cs.made[a]? = some x ∧ P a x) ↔ P k c := by
      intro P
      constructor
      · rintro ⟨_, x, rfl, hx, hp⟩
        cases hc.symm.trans hx
        exact hp
      · exact fun hp => ⟨k, c, rfl, hc, hp⟩
    by_cases hd : d = .background
    · subst hd
      simp only [ancestor_background hmade]
      rw [hself (P := fun _ x => x.mark.id = n), hmark]
      simp [madeMark, Mark.ids, Mark.id, eq_comm]
    · simp only [ancestor_derived hmade hd, or_and_right, exists_or]
      rw [hself (P := fun _ x => x.mark.id = n), ← ih j (hlt hd) hc', hmark]
      by_cases hclone : d = .clone
      · subst hclone
        refine ⟨.inr, fun hn => hn.elim (fun hn => ?_) id⟩
        exact List.mem_of_mem_head? (hn ▸ Mark.head?_ids _)
      · rw [madeMark_child hd hclone]
        simp [Mark.ids, Mark.id, eq_comm]

/-- Marks of ancestors are what the mark was made from. -/
theorem ids_suffix {a k : Nat} (ha : Ancestor ops a k) {x c : Context}
    (hx : cs.made[a]? = some x) (hc : cs.made[k]? = some c) : x.mark.ids <:+ c.mark.ids := by
  induction ha generalizing c with
  | refl =>
    cases hx.symm.trans hc
    exact List.suffix_rfl
  | tail _ hderived ih =>
    obtain ⟨d, hmade, hd⟩ := hderived
    obtain ⟨c', hc', hmark, -⟩ := h.marks _ c hc _ d hmade
    have hprev := ih hc'
    rw [hmark]
    by_cases hclone : d = .clone
    · subst hclone
      exact hprev
    · rw [madeMark_child hd hclone]
      exact hprev.trans (List.suffix_cons _ _)

theorem mark_child {p k : Nat} (hchild : Child ops p k) :
    ∃ x c, cs.made[p]? = some x ∧ cs.made[k]? = some c ∧ c.mark = .child k x.mark := by
  obtain ⟨d, hmade, hd, hclone⟩ := hchild
  obtain ⟨c, hc⟩ := h.exists_context hmade
  obtain ⟨x, hx, hmark, -⟩ := h.marks k c hc p d hmade
  exact ⟨x, c, hx, hc, hmark.trans (madeMark_child hd hclone)⟩

theorem exists_of_ancestor {a k : Nat} {c : Context} (ha : Ancestor ops a k)
    (hc : cs.made[k]? = some c) : ∃ x, cs.made[a]? = some x := by
  induction ha generalizing c with
  | refl => exact ⟨c, hc⟩
  | tail _ hderived ih =>
    obtain ⟨d, hmade, -⟩ := hderived
    obtain ⟨x, hx, -⟩ := h.marks _ c hc _ d hmade
    exact ih hx

/-! Who is covered -/

/-- Whoever is covered by a context has a mark made from that of the context. -/
theorem covers_iff {j k : Nat} {x c : Context} (hx : cs.made[j]? = some x)
    (hc : cs.made[k]? = some c) : Covers ops j k ↔ x.mark.id ∈ c.mark.ids := by
  rw [h.mem_ids_iff hc]
  constructor
  · rintro ⟨a, hshare, ha⟩
    obtain ⟨y, hy⟩ := h.exists_of_ancestor ha hc
    exact ⟨a, y, ha, hy, ((h.sharing_iff hx hy).1 hshare).symm⟩
  · rintro ⟨a, y, ha, hy, hid⟩
    exact ⟨a, (h.sharing_iff hx hy).2 hid.symm, ha⟩

theorem isCancelled_iff {k : Nat} {c : Context} (hc : cs.made[k]? = some c) :
    cs.isCancelled c = true ↔ ∃ j, .cancel j ∈ ops ∧ Covers ops j k := by
  rw [isCancelled, Mark.isSet_iff]
  constructor
  · rintro ⟨n, hn, hset⟩
    obtain ⟨j, x, hj, hx, rfl⟩ := (h.set n).1 hset
    exact ⟨j, hj, (h.covers_iff hx hc).2 hn⟩
  · rintro ⟨j, hj, hcovers⟩
    have hx := List.getElem?_eq_getElem (h.cancelled j hj)
    exact ⟨_, (h.covers_iff hx hc).1 hcovers, (h.set _).2 ⟨j, _, hj, hx, rfl⟩⟩

theorem suffix_of_covers {j k : Nat} (hcovers : Covers ops j k) {c : Context}
    (hc : cs.made[k]? = some c) : ∃ x, cs.made[j]? = some x ∧ x.mark.ids <:+ c.mark.ids := by
  obtain ⟨a, hshare, ha⟩ := hcovers
  obtain ⟨y, hy⟩ := h.exists_of_ancestor ha hc
  have hmark := h.mark_sharing hshare
  rw [hy, Option.map_some] at hmark
  obtain ⟨x, hx, hxy⟩ := Option.map_eq_some_iff.1 hmark
  exact ⟨x, hx, hxy ▸ h.ids_suffix ha hy hc⟩

/-- A context does not cover what it was derived from. -/
theorem not_covers_of_properAncestor {a j : Nat} (hproper : ProperAncestor ops a j) {x : Context}
    (hx : cs.made[j]? = some x) : ¬ Covers ops j a := by
  rintro hcovers
  obtain ⟨b, c, hab, hchild, hcj⟩ := hproper
  obtain ⟨y, z, hy, hz, hmark⟩ := h.mark_child hchild
  obtain ⟨w, hw⟩ := h.exists_of_ancestor hab hy
  obtain ⟨x', hx', hsuffix⟩ := h.suffix_of_covers hcovers hw
  cases hx.symm.trans hx'
  have hup := (h.ids_suffix hab hw hy).length_le
  have hdown := (h.ids_suffix hcj hz hx).length_le
  have hback := hsuffix.length_le
  rw [hmark, Mark.ids, List.length_cons] at hdown
  omega

theorem not_covers_of_siblings {j k : Nat} (hsiblings : Siblings ops j k) : ¬ Covers ops j k := by
  rintro hcovers
  obtain ⟨hne, p, q, hshare, hj, hk⟩ := hsiblings
  obtain ⟨x, c, hx, hc, hmark⟩ := h.mark_child hj
  obtain ⟨y, c', hy, hc', hmark'⟩ := h.mark_child hk
  obtain ⟨z, hz, hsuffix⟩ := h.suffix_of_covers hcovers hc'
  cases hc.symm.trans hz
  have hparents := h.mark_sharing hshare
  rw [hx, hy] at hparents
  have hparents : x.mark = y.mark := Option.some.inj hparents
  rw [hmark, hmark', hparents, Mark.ids, Mark.ids] at hsuffix
  exact hne (List.cons.inj (hsuffix.eq_of_length rfl)).1

end Recorded

/-! Going on -/

theorem isCancelled_mono {cs cs' : Contexts} {c : Context} (h : cs.set ⊆ cs'.set)
    (hc : cs.isCancelled c = true) : cs'.isCancelled c = true := by
  rw [isCancelled, Mark.isSet_iff] at hc ⊢
  obtain ⟨n, hn, hset⟩ := hc
  exact ⟨n, hn, h hset⟩

/-- Contexts stay and no mark is taken back. -/
theorem kept_of_run? {cs cs' : Contexts} {ops : List Operation} (h : cs.run? ops = some cs') :
    cs.made <+: cs'.made ∧ cs.set ⊆ cs'.set := by
  induction ops using List.reverseRecOn generalizing cs' with
  | nil =>
    cases h
    exact ⟨List.prefix_rfl, List.Subset.refl _⟩
  | append_singleton ops op ih =>
    obtain ⟨mid, hmid, hstep⟩ := run?_concat.1 h
    obtain ⟨hmade, hset⟩ := ih hmid
    rcases perform?_cases hstep with ⟨_, _, _, _, made, -, -, -, rfl⟩ | ⟨_, c, -, -, rfl⟩
    · exact ⟨hmade.trans (List.prefix_append _ _), hset⟩
    · exact ⟨hmade, fun n hn => List.mem_cons_of_mem _ (hset hn)⟩

/-- After any history a context is cancelled exactly if one that covers it was cancelled. One more
cancellation reaches those that are covered and no other: no ancestor, no sibling. What is
cancelled stays so. -/
theorem cancellation_follows_lineage {ops : List Operation} {cs : Contexts}
    (h : start.run? ops = some cs) :
    (∀ k c, cs.made[k]? = some c →
      (cs.isCancelled c = true ↔ ∃ j, .cancel j ∈ ops ∧ Covers ops j k)) ∧
    (∀ j cs', cs.perform? (.cancel j) = some cs' → cs'.made = cs.made ∧
      (∀ k c, cs.made[k]? = some c →
        (cs'.isCancelled c = true ↔ cs.isCancelled c = true ∨ Covers ops j k)) ∧
      (∀ a, ProperAncestor ops a j → ¬ Covers ops j a) ∧
      ∀ k, Siblings ops j k → ¬ Covers ops j k) ∧
    ∀ more cs', cs.run? more = some cs' → ∀ (k : Nat) (c : Context), cs.made[k]? = some c →
      cs'.made[k]? = some c ∧ (cs.isCancelled c = true → cs'.isCancelled c = true) := by
  have hrec := recorded_of_run? h
  refine ⟨fun k c hc => hrec.isCancelled_iff hc, fun j cs' hstep => ?_, fun more cs' hmore => ?_⟩
  · obtain ⟨x, hx, rfl⟩ : ∃ x, cs.made[j]? = some x ∧ cs' = cs.cancelMark x.mark := by
      rcases perform?_cases hstep with ⟨_, _, _, _, _, hop, -⟩ | ⟨_, x, hop, hx, rfl⟩
      · cases hop
      · cases hop
        exact ⟨x, hx, rfl⟩
    refine ⟨rfl, fun k c hc => ?_, fun a ha => hrec.not_covers_of_properAncestor ha hx,
      fun k hk => hrec.not_covers_of_siblings hk⟩
    have hset : ∀ n, n ∈ (cs.cancelMark x.mark).set ↔ n = x.mark.id ∨ n ∈ cs.set :=
      fun _ => List.mem_cons
    rw [hrec.covers_iff hx hc, isCancelled, isCancelled, Mark.isSet_iff, Mark.isSet_iff]
    simp only [hset, and_or_left, exists_or, exists_eq_right]
    exact or_comm
  · obtain ⟨hmade, hset⟩ := kept_of_run? hmore
    intro k c hc
    obtain ⟨back, hback⟩ := hmade
    refine ⟨?_, isCancelled_mono hset⟩
    rw [← hback, List.getElem?_append_left (List.getElem?_eq_some_iff.1 hc).1, hc]

/-- Child 1 is cancelled, cloned, and only then has a child; context 4 is its sibling. -/
def family : List Operation := [.derive 0 0 .child, .cancel 1, .derive 0 1 .clone,
  .derive 5 2 (.withTimeout 10), .derive 5 0 (.withDeadline 7)]

theorem family_cancelled : ∃ cs, start.run? family = some cs ∧
    (cs.made.map fun c => cs.isCancelled c) = [false, true, true, true, false] ∧
    (∃ j, .cancel j ∈ family ∧ Covers family j 3) ∧ ¬ Covers family 1 0 ∧ ¬ Covers family 1 4 := by
  obtain ⟨cs, h⟩ : ∃ cs, start.run? family = some cs := ⟨_, rfl⟩
  obtain ⟨hcancelled, hstep, -⟩ := cancellation_follows_lineage h
  have hchild : Child family 0 1 := ⟨.child, rfl, by decide, by decide⟩
  have hbelow : Child family 0 4 := ⟨.withDeadline 7, rfl, by decide, by decide⟩
  cases h
  obtain ⟨-, -, hproper, hsiblings⟩ := hstep 1 _ rfl
  refine ⟨_, rfl, by decide, (hcancelled 3 _ rfl).1 (by decide), hproper 0 ?_, hsiblings 4 ?_⟩
  · exact ⟨0, 1, .refl, hchild, .refl⟩
  · exact ⟨by decide, 0, 0, .refl 0, hchild, hbelow⟩

end Contexts

end Bindery
