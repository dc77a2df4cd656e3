import Mathlib

/-!
# Steps that may fail

When a sequence of steps, a check, a loop that remembers what it has met, and a search through a
list succeed, and with what.
-/
namespace Bindery

variable {ε α β σ : Type}

theorem bind_eq_ok_iff {x : Except ε α} {f : α → Except ε β} {b : β} :
    (x >>= f) = .ok b ↔ ∃ a, x = .ok a ∧ f a = .ok b := by
  cases x with
  | error why => simp [bind, Except.bind]
  | ok a => simp [bind, Except.bind]

theorem exists_unit_iff {p : Unit → Prop} : (∃ u, p u) ↔ p () :=
  ⟨fun ⟨(), h⟩ => h, fun h => ⟨(), h⟩⟩

theorem pure_eq_ok_iff {a b : α} : (pure a : Except ε α) = .ok b ↔ a = b := by
  simp [pure, Except.pure]

/-- What a computation gives can be decided even if the reasons for its failure cannot. -/
theorem eq_ok_of_toOption {x : Except ε α} {a : α} (h : x.toOption = some a) : x = .ok a := by
  cases x with
  | error why => cases h
  | ok b => exact congrArg Except.ok (Option.some.inj h)

theorem throw_ne_ok {why : ε} {a : α} : (throw why : Except ε α) ≠ .ok a := by
  simp [throw, throwThe, MonadExceptOf.throw]

/-- A check in front of further steps. -/
theorem check_eq_ok_iff {p : Prop} [Decidable p] {why : ε} {k : Unit → Except ε β} {b : β} :
    (if p then throw why >>= k else k ()) = .ok b ↔ ¬p ∧ k () = .ok b := by
  split
  · rename_i hp
    simp [hp, throw, throwThe, MonadExceptOf.throw, bind, Except.bind]
  · rename_i hp
    simp [hp]

theorem discard_eq_ok_iff {x : Except ε α} : discard x = .ok () ↔ ∃ a, x = .ok a := by
  cases x with
  | error why => simp [discard, Functor.mapConst, Except.map]
  | ok a => simp [discard, Functor.mapConst, Except.map]

theorem forM_eq_ok_iff {f : α → Except ε Unit} {xs : List α} :
    xs.forM f = .ok () ↔ ∀ x ∈ xs, f x = .ok () := by
  induction xs with
  | nil => simp [pure, Except.pure]
  | cons x rest ih =>
    change (f x >>= fun _ => rest.forM f) = .ok () ↔ _
    rw [bind_eq_ok_iff, List.forall_mem_cons]
    exact ⟨fun ⟨(), hx, hrest⟩ => ⟨hx, ih.1 hrest⟩, fun h => ⟨(), h.1, ih.2 h.2⟩⟩

/-- A search that fails for one element fails. -/
theorem mapM_eq_none {f : α → Option β} {xs : List α} {x : α} (hx : x ∈ xs)
    (h : f x = none) : xs.mapM f = none := by
  induction xs with
  | nil => cases hx
  | cons y rest ih =>
    rw [List.mapM_cons]
    rcases List.mem_cons.1 hx with rfl | hx
    · rw [h]
      rfl
    · rw [ih hx]
      cases f y <;> rfl

theorem mapM_eq_ok_iff {f : α → Except ε β} {xs : List α} {ys : List β} :
    xs.mapM f = .ok ys ↔ List.Forall₂ (fun x y => f x = .ok y) xs ys := by
  induction xs generalizing ys with
  | nil =>
    rw [List.mapM_nil, pure_eq_ok_iff, List.forall₂_nil_left_iff]
    exact eq_comm
  | cons x rest ih =>
    simp only [List.mapM_cons, bind_eq_ok_iff, ih, pure_eq_ok_iff,
      List.forall₂_cons_left_iff]
    constructor
    · rintro ⟨y, hy, ys', hys, rfl⟩
      exact ⟨y, ys', hy, hys, rfl⟩
    · rintro ⟨y, ys', hy, hys, rfl⟩
      exact ⟨y, hy, ys', hys, rfl⟩

theorem exists_of_forall₂_right {R : α → β → Prop} {xs : List α} {ys : List β}
    (h : List.Forall₂ R xs ys) {y : β} (hy : y ∈ ys) : ∃ x ∈ xs, R x y := by
  induction h with
  | nil => cases hy
  | cons hxy _ ih =>
    rcases List.mem_cons.1 hy with rfl | hy
    · exact ⟨_, List.mem_cons_self, hxy⟩
    · obtain ⟨x, hx, hR⟩ := ih hy
      exact ⟨x, List.mem_cons_of_mem _ hx, hR⟩

theorem map_eq_of_forall₂ {R : α → β → Prop} {f : α → σ} {g : β → σ} {xs : List α} {ys : List β}
    (h : List.Forall₂ R xs ys) (hR : ∀ x ∈ xs, ∀ y, R x y → g y = f x) : ys.map g = xs.map f := by
  induction h with
  | nil => rfl
  | cons hxy _ ih =>
    rw [List.map_cons, List.map_cons, hR _ List.mem_cons_self _ hxy,
      ih fun x hx => hR x (List.mem_cons_of_mem _ hx)]

/-- Steps with a result in between. -/
theorem exists_of_forall₂_comp {R : α → β → Prop} {S : β → σ → Prop} {xs : List α} {zs : List σ}
    (h : List.Forall₂ (fun x z => ∃ y, R x y ∧ S y z) xs zs) :
    ∃ ys, List.Forall₂ R xs ys ∧ List.Forall₂ S ys zs := by
  induction h with
  | nil => exact ⟨[], .nil, .nil⟩
  | cons hxz _ ih =>
    obtain ⟨y, hR, hS⟩ := hxz
    obtain ⟨ys, hRs, hSs⟩ := ih
    exact ⟨y :: ys, .cons hR hRs, .cons hS hSs⟩

/-- A loop that adds to a state. Each step succeeds if the element fits and the state stays good;
a state that is good was good before. -/
theorem foldlM_eq_ok_iff {f : σ → α → Except ε σ} {add : σ → α → σ} {Good : σ → Prop}
    {Fits : α → Prop}
    (step : ∀ s a s', Good s → (f s a = .ok s' ↔ Fits a ∧ Good (add s a) ∧ s' = add s a))
    (before : ∀ s a, Good (add s a) → Good s) {xs : List α} {s s' : σ} (h : Good s) :
    xs.foldlM f s = .ok s' ↔
      (∀ a ∈ xs, Fits a) ∧ Good (xs.foldl add s) ∧ s' = xs.foldl add s := by
  have start : ∀ (ys : List α) (t : σ), Good (ys.foldl add t) → Good t := by
    intro ys
    induction ys with
    | nil => exact fun t ht => ht
    | cons y rest ih => exact fun t ht => before t y (ih _ ht)
  induction xs generalizing s with
  | nil =>
    simp only [List.foldlM_nil, pure_eq_ok_iff, List.not_mem_nil, List.foldl_nil]
    exact ⟨fun e => ⟨by simp, h, e.symm⟩, fun e => e.2.2.symm⟩
  | cons x rest ih =>
    simp only [List.foldlM_cons, bind_eq_ok_iff, List.foldl_cons, List.forall_mem_cons]
    constructor
    · rintro ⟨t, ht, hrest⟩
      obtain ⟨hx, hgood, rfl⟩ := (step s x t h).1 ht
      obtain ⟨hfit, hend, rfl⟩ := (ih hgood).1 hrest
      exact ⟨⟨hx, hfit⟩, hend, rfl⟩
    · rintro ⟨⟨hx, hfit⟩, hend, rfl⟩
      have hgood : Good (add s x) := start rest _ hend
      exact ⟨add s x, (step s x _ h).2 ⟨hx, hgood, rfl⟩, (ih hgood).2 ⟨hfit, hend, rfl⟩⟩

end Bindery
