import Bindery.Form.Basic
import Mathlib

/-!
# Forms from pairs

A form that is filled pair by pair holds the last value of each key. It has a parameter for each of
the pairs exactly if no key comes twice.
-/
namespace Bindery

namespace Keyed

variable {α : Type}

/-- A key in front of all others is not among them. -/
theorem lookup_eq_none_of_lt {key : String} {ps : Keyed α} (h : ∀ p ∈ ps, key < p.1) :
    ps.lookup key = none := by
  rw [List.lookup_eq_none_iff]
  intro p hp
  rw [bne_iff_ne]
  rintro rfl
  exact String.lt_irrefl _ (h p hp)

theorem lookup_eq_some_iff {ps : List (String × α)} (h : (ps.map Prod.fst).Nodup) {key : String}
    {value : α} : ps.lookup key = some value ↔ (key, value) ∈ ps := by
  induction ps with
  | nil => simp
  | cons q rest ih =>
    obtain ⟨k, v⟩ := q
    obtain ⟨hk, hrest⟩ := List.nodup_cons.1 h
    rw [List.lookup_cons, List.mem_cons]
    by_cases heq : key = k
    · subst heq
      have hnot : (key, value) ∉ rest := fun hmem => hk (List.mem_map.2 ⟨_, hmem, rfl⟩)
      simp [hnot, eq_comm]
    · have hother := ih hrest
      simp [heq, beq_eq_false_iff_ne.2 heq, hother]

theorem Ascending.nodup_keys {ps : Keyed α} (h : Ascending ps) : (ps.map Prod.fst).Nodup := by
  rw [List.Nodup, List.pairwise_map]
  refine h.imp ?_
  intro p q hlt heq
  rw [heq] at hlt
  exact String.lt_irrefl _ hlt

theorem length_put (key : String) (value : α) {ps : Keyed α} (h : Ascending ps) :
    (put key value ps).length =
      if (ps.lookup key).isSome then ps.length else ps.length + 1 := by
  induction ps with
  | nil => rfl
  | cons q rest ih =>
    obtain ⟨k, v⟩ := q
    have ⟨hk, hrest⟩ := List.pairwise_cons.1 h
    rw [put]
    split
    · rename_i hlt
      have hnone : List.lookup key ((k, v) :: rest) = none := by
        apply lookup_eq_none_of_lt
        intro p hp
        rcases List.mem_cons.1 hp with rfl | hp
        · exact hlt
        · exact String.lt_trans hlt (hk p hp)
      simp [hnone]
    · split
      · rename_i heq
        simp [heq]
      · rename_i hne
        rw [List.length_cons, ih hrest, List.lookup_cons, beq_eq_false_iff_ne.2 hne]
        split <;> rfl

end Keyed

namespace Form

theorem get?_set (f : Form) (key value other : String) :
    (f.set key value).get? other = if other = key then some value else f.get? other := by
  split
  · rename_i h
    rw [h, get?_set_self]
  · rename_i h
    exact get?_set_ne f h value

theorem size_set (f : Form) (key value : String) :
    (f.set key value).size = if f.contains key then f.size else f.size + 1 :=
  Keyed.length_put key value f.ascending

/-! Forms from pairs -/

@[simp] theorem ofPairs_nil : ofPairs [] = empty := rfl

theorem ofPairs_concat (ps : List (String × String)) (p : String × String) :
    ofPairs (ps ++ [p]) = (ofPairs ps).set p.1 p.2 := by
  simp [ofPairs]

/-- Of the values of a key the last counts. -/
theorem get?_ofPairs (ps : List (String × String)) (key : String) :
    (ofPairs ps).get? key = ps.reverse.lookup key := by
  induction ps using List.reverseRecOn with
  | nil => rfl
  | append_singleton ps p ih =>
    rw [ofPairs_concat, get?_set, ih, List.reverse_append, List.reverse_singleton,
      List.singleton_append, List.lookup_cons]
    by_cases h : key = p.1
    · simp [h]
    · simp [h, beq_eq_false_iff_ne.2 h]

theorem contains_ofPairs (ps : List (String × String)) (key : String) :
    (ofPairs ps).contains key = true ↔ key ∈ ps.map Prod.fst := by
  rw [contains, get?_ofPairs, List.lookup_isSome_iff]
  simp

theorem size_ofPairs_le (ps : List (String × String)) : (ofPairs ps).size ≤ ps.length := by
  induction ps using List.reverseRecOn with
  | nil => exact Nat.le_refl 0
  | append_singleton ps p ih =>
    rw [ofPairs_concat, size_set, List.length_append, List.length_singleton]
    split <;> omega

/-- Nothing is lost exactly if no key comes twice. -/
theorem size_ofPairs_eq_iff (ps : List (String × String)) :
    (ofPairs ps).size = ps.length ↔ (ps.map Prod.fst).Nodup := by
  induction ps using List.reverseRecOn with
  | nil => simp [size, empty]
  | append_singleton ps p ih =>
    have hle := size_ofPairs_le ps
    rw [ofPairs_concat, size_set, List.length_append, List.length_singleton, List.map_append,
      List.map_singleton, ← List.concat_eq_append, List.nodup_concat, ← ih,
      ← contains_ofPairs]
    by_cases h : (ofPairs ps).contains p.1 = true
    · simp only [h, if_true, not_true_eq_false, false_and, iff_false]
      omega
    · simp [h]

theorem get?_ofPairs_eq_some_iff {ps : List (String × String)} (h : (ps.map Prod.fst).Nodup)
    {key value : String} : (ofPairs ps).get? key = some value ↔ (key, value) ∈ ps := by
  rw [get?_ofPairs, ← List.mem_reverse]
  refine Keyed.lookup_eq_some_iff ?_
  rwa [List.map_reverse, List.nodup_reverse]

/-! What a form holds -/

theorem get?_eq_some_iff {f : Form} {key value : String} :
    f.get? key = some value ↔ (key, value) ∈ f.pairs :=
  Keyed.lookup_eq_some_iff f.ascending.nodup_keys

/-- A form is determined by its parameters. -/
theorem ext_get? {f g : Form} (h : ∀ key, f.get? key = g.get? key) : f = g := by
  refine ext ?_
  have hmem : ∀ p : String × String, p ∈ f.pairs ↔ p ∈ g.pairs := fun p => by
    rw [← get?_eq_some_iff, ← get?_eq_some_iff, h]
  have hperm : f.pairs.Perm g.pairs :=
    (List.perm_ext_iff_of_nodup f.ascending.nodup_keys.of_map
      g.ascending.nodup_keys.of_map).2 hmem
  refine hperm.eq_of_pairwise (fun a b _ _ hab hba => ?_) f.ascending g.ascending
  exact absurd (String.lt_trans hab hba) (String.lt_irrefl _)

theorem set_comm {key other : String} (h : key ≠ other) (value value' : String) (f : Form) :
    (f.set key value).set other value' = (f.set other value').set key value := by
  refine ext_get? fun k => ?_
  rw [get?_set, get?_set, get?_set, get?_set]
  split
  · rename_i hk
    rw [if_neg fun hk' => h (hk'.symm.trans hk)]
  · rfl

/-- Parameters with different keys can be set in any order. -/
theorem foldl_set_perm {ps qs : List (String × String)} (h : (ps.map Prod.fst).Nodup)
    (hperm : ps.Perm qs) (f : Form) :
    ps.foldl (fun g p => g.set p.1 p.2) f = qs.foldl (fun g p => g.set p.1 p.2) f := by
  refine hperm.foldl_eq' (fun p hp q hq g => ?_) f
  by_cases hkey : p.1 = q.1
  · rw [List.inj_on_of_nodup_map h hp hq hkey]
  · exact set_comm hkey p.2 q.2 g

end Form

end Bindery
