/-!
# Pairs sorted by key

A list of pairs with strictly ascending keys holds one value a key.
-/
namespace Bindery

abbrev Keyed (α : Type) := List (String × α)

namespace Keyed

/-- Keys strictly ascend. -/
def Ascending (ps : Keyed α) : Prop := ps.Pairwise fun p q => p.1 < q.1

/-- Puts a value under a key; the value it had is replaced. -/
def put (key : String) (value : α) : Keyed α → Keyed α
  | [] => [(key, value)]
  | (k, v) :: rest =>
    if key < k then (key, value) :: (k, v) :: rest
    else if key = k then (key, value) :: rest
    else (k, v) :: put key value rest

theorem mem_put {key : String} {value : α} {ps : Keyed α} {p : String × α}
    (h : p ∈ put key value ps) : p = (key, value) ∨ p ∈ ps := by
  induction ps with
  | nil => simpa [put] using h
  | cons q rest ih =>
    obtain ⟨k, v⟩ := q
    rw [put] at h
    split at h
    · simpa using h
    · split at h
      · simp only [List.mem_cons] at h ⊢
        exact h.imp_right Or.inr
      · simp only [List.mem_cons] at h ⊢
        rcases h with h | h
        · exact .inr (.inl h)
        · exact (ih h).imp_right Or.inr

theorem ascending_nil : Ascending ([] : Keyed α) := List.Pairwise.nil

theorem ascending_put (key : String) (value : α) {ps : Keyed α} (h : Ascending ps) :
    Ascending (put key value ps) := by
  induction ps with
  | nil => simp [put, Ascending]
  | cons q rest ih =>
    obtain ⟨k, v⟩ := q
    have ⟨hk, hrest⟩ := List.pairwise_cons.1 h
    rw [put]
    split
    · rename_i hlt
      refine List.pairwise_cons.2 ⟨fun p hp => ?_, h⟩
      rcases List.mem_cons.1 hp with rfl | hp
      · exact hlt
      · exact String.lt_trans hlt (hk p hp)
    · split
      · rename_i heq
        exact List.pairwise_cons.2 ⟨fun p hp => heq ▸ hk p hp, hrest⟩
      · rename_i hge hne
        have hlt : k < key := Std.lt_of_le_of_ne hge fun e => hne e.symm
        refine List.pairwise_cons.2 ⟨fun p hp => ?_, ih hrest⟩
        rcases mem_put hp with rfl | hp
        · exact hlt
        · exact hk p hp

theorem lookup_put_self (key : String) (value : α) (ps : Keyed α) :
    (put key value ps).lookup key = some value := by
  induction ps with
  | nil => simp [put]
  | cons q rest ih =>
    obtain ⟨k, v⟩ := q
    rw [put]
    split
    · simp
    · split
      · simp
      · rename_i hne
        simp [List.lookup_cons, beq_eq_false_iff_ne.2 hne, ih]

theorem lookup_put_ne {key other : String} (h : other ≠ key) (value : α) (ps : Keyed α) :
    (put key value ps).lookup other = ps.lookup other := by
  induction ps with
  | nil => simp [put, List.lookup_cons, beq_eq_false_iff_ne.2 h]
  | cons q rest ih =>
    obtain ⟨k, v⟩ := q
    rw [put]
    split
    · simp [List.lookup_cons, beq_eq_false_iff_ne.2 h]
    · split
      · rename_i heq
        subst heq
        simp [List.lookup_cons, beq_eq_false_iff_ne.2 h]
      · simp only [List.lookup_cons, ih]

/-- Of pairs with one key the last counts. -/
def ofPairs (ps : List (String × α)) : Keyed α := ps.foldl (fun done p => done.put p.1 p.2) []

end Keyed

end Bindery
