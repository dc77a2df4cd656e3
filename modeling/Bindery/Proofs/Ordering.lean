import Bindery.Output
import Bindery.Proofs.Acceptance

/-!
# Orders of a plan

A plan sorts what a catalog lists. Names decide the order and occur once, so the order of the
catalog leaves no trace in it.
-/
namespace Bindery

/-! Sorting by a name -/

section Sorting

variable {α : Type} (name : α → String)

/-- Sorts by a name. -/
def sortBy (xs : List α) : List α := xs.mergeSort fun a b => name a ≤ name b

theorem sortBy_perm (xs : List α) : (sortBy name xs).Perm xs := List.mergeSort_perm _ _

theorem sortBy_pairwise (xs : List α) : (sortBy name xs).Pairwise fun a b => name a ≤ name b := by
  have hsorted : (sortBy name xs).Pairwise fun a b => decide (name a ≤ name b) = true := by
    apply List.pairwise_mergeSort
    · intro a b c hab hbc
      rw [decide_eq_true_eq] at hab hbc ⊢
      exact String.le_trans hab hbc
    · intro a b
      rw [Bool.or_eq_true, decide_eq_true_eq, decide_eq_true_eq]
      exact String.le_total _ _
  exact hsorted.imp of_decide_eq_true

variable {name}

/-- Sorting forgets the order if the names differ. -/
theorem sortBy_eq_of_perm {xs ys : List α} (h : xs.Perm ys) (hn : (xs.map name).Nodup) :
    sortBy name xs = sortBy name ys := by
  have hperm : (sortBy name xs).Perm (sortBy name ys) :=
    (sortBy_perm name xs).trans (h.trans (sortBy_perm name ys).symm)
  refine List.Perm.eq_of_pairwise ?_ (sortBy_pairwise name xs) (sortBy_pairwise name ys) hperm
  intro a b ha hb hab hba
  have ha' : a ∈ xs := (sortBy_perm name xs).mem_iff.1 ha
  have hb' : b ∈ xs := h.mem_iff.2 ((sortBy_perm name ys).mem_iff.1 hb)
  exact List.inj_on_of_nodup_map hn ha' hb' (String.le_antisymm hab hba)

theorem map_sortBy {β : Type} {other : β → String} {f : α → β} (h : ∀ a, other (f a) = name a)
    (xs : List α) : (sortBy name xs).map f = sortBy other (xs.map f) :=
  List.map_mergeSort fun a _ b _ => by rw [h, h]

end Sorting

theorem sortArguments_eq (args : List Argument) : sortArguments args = sortBy (·.name) args := rfl

theorem sortMethods_eq (ms : List Method) : sortMethods ms = sortBy (·.endpoint.name) ms := rfl

/-! Distinct names -/

theorem mem_insertName {name n : String} {names : List String} :
    n ∈ insertName name names ↔ n = name ∨ n ∈ names := by
  induction names with
  | nil => simp [insertName]
  | cons k rest ih =>
    unfold insertName
    split
    · simp
    · split
      · rename_i _ heq
        rw [beq_iff_eq] at heq
        simp [heq]
      · simp only [List.mem_cons, ih]
        exact or_left_comm

theorem pairwise_insertName {name : String} {names : List String} (h : names.Pairwise (· < ·)) :
    (insertName name names).Pairwise (· < ·) := by
  induction names with
  | nil => simp [insertName]
  | cons k rest ih =>
    have ⟨hk, hrest⟩ := List.pairwise_cons.1 h
    unfold insertName
    split
    · rename_i hlt
      refine List.pairwise_cons.2 ⟨fun n hn => ?_, h⟩
      rcases List.mem_cons.1 hn with rfl | hn
      · exact hlt
      · exact String.lt_trans hlt (hk n hn)
    · split
      · exact h
      · rename_i hge hne
        have hlt : k < name :=
          Std.lt_of_le_of_ne (String.not_lt.1 hge) fun e => hne (beq_iff_eq.2 e.symm)
        refine List.pairwise_cons.2 ⟨fun n hn => ?_, ih hrest⟩
        rcases mem_insertName.1 hn with rfl | hn
        · exact hlt
        · exact hk n hn

theorem mem_distinctNames {n : String} {names : List String} :
    n ∈ distinctNames names ↔ n ∈ names := by
  induction names with
  | nil => rfl
  | cons k rest ih =>
    change n ∈ insertName k (distinctNames rest) ↔ _
    rw [mem_insertName, ih, List.mem_cons]

theorem distinctNames_pairwise (names : List String) :
    (distinctNames names).Pairwise (· < ·) := by
  induction names with
  | nil => exact List.Pairwise.nil
  | cons k rest ih => exact pairwise_insertName ih

theorem distinctNames_nodup (names : List String) : (distinctNames names).Nodup :=
  have : Std.Irrefl fun a b : String => a < b := ⟨String.lt_irrefl⟩
  (distinctNames_pairwise names).nodup

/-- Distinct names depend on the names only as a set. -/
theorem distinctNames_eq_of_mem {names names' : List String} (h : ∀ n, n ∈ names ↔ n ∈ names') :
    distinctNames names = distinctNames names' := by
  have : Std.Irrefl fun a b : String => a < b := ⟨String.lt_irrefl⟩
  have : Std.Antisymm fun a b : String => a < b :=
    ⟨fun a b hab hba => (String.lt_asymm hab hba).elim⟩
  refine (distinctNames_pairwise names).eq_of_mem_iff (distinctNames_pairwise names') fun n => ?_
  rw [mem_distinctNames, mem_distinctNames, h]

/-- The parts of a list by a name make up the whole. -/
theorem flatMap_filter_perm {α : Type} (key : α → String) {names : List String}
    (hn : names.Nodup) {xs : List α} (h : ∀ x ∈ xs, key x ∈ names) :
    (names.flatMap fun n => xs.filter (key · == n)).Perm xs := by
  induction names generalizing xs with
  | nil =>
    have : xs = [] := List.eq_nil_iff_forall_not_mem.2 fun x hx => by simpa using h x hx
    simp [this]
  | cons n rest ih =>
    obtain ⟨hnot, hrest⟩ := List.nodup_cons.1 hn
    have hothers : (rest.flatMap fun k => xs.filter (key · == k)) =
        rest.flatMap fun k => (xs.filter (!key · == n)).filter (key · == k) := by
      refine List.flatMap_congr fun k hk => ?_
      rw [List.filter_filter]
      refine List.filter_congr fun x _ => ?_
      by_cases hx : key x = k
      · have : k ≠ n := fun e => hnot (e ▸ hk)
        simp [hx, this]
      · simp [hx]
    have hmem : ∀ x ∈ xs.filter (!key · == n), key x ∈ rest := by
      intro x hx
      rw [List.mem_filter, Bool.not_eq_true', beq_eq_false_iff_ne] at hx
      exact (List.mem_cons.1 (h x hx.1)).resolve_left hx.2
    rw [List.flatMap_cons, hothers]
    exact ((ih hrest hmem).append_left _).trans (List.filter_append_perm _ xs)

/-! Methods and plans -/

theorem ofEndpoint_arguments {e : Endpoint} {m : Method} (h : Method.ofEndpoint e = .ok m) :
    m.arguments = sortArguments e.arguments := by
  unfold Method.ofEndpoint at h
  split at h
  · exact (congrArg Method.arguments (Except.ok.inj h)).symm
  · simp at h

theorem arguments_perm {e : Endpoint} {m : Method} (h : Method.ofEndpoint e = .ok m) :
    m.arguments.Perm e.arguments := by
  rw [ofEndpoint_arguments h]
  exact sortBy_perm _ _

namespace Plan

theorem ofMethods_eq_of_perm {ms ms' : List Method} (h : ms.Perm ms')
    (hn : (ms.map (·.endpoint.name)).Nodup) : ofMethods ms = ofMethods ms' := by
  have hgroups : distinctNames (ms.map (·.group)) = distinctNames (ms'.map (·.group)) :=
    distinctNames_eq_of_mem fun _ => (h.map _).mem_iff
  have hunits : distinctNames (ms.map (·.unit)) = distinctNames (ms'.map (·.unit)) :=
    distinctNames_eq_of_mem fun _ => (h.map _).mem_iff
  have hsorted : ∀ unit, sortMethods (ms.filter (·.unit == unit)) =
      sortMethods (ms'.filter (·.unit == unit)) := by
    intro unit
    rw [sortMethods_eq, sortMethods_eq]
    exact sortBy_eq_of_perm (h.filter _) (hn.sublist (List.filter_sublist.map _))
  simp only [ofMethods, hgroups, hunits, hsorted]

/-- Methods can be changed before or after they are planned, as long as what decides their places
stays. -/
theorem ofMethods_map {f : Method → Method} (hname : ∀ m, (f m).endpoint.name = m.endpoint.name)
    (hgroup : ∀ m, (f m).group = m.group) (hunit : ∀ m, (f m).unit = m.unit) (ms : List Method) :
    ofMethods (ms.map f) =
      ⟨(ofMethods ms).groups, (ofMethods ms).units.map fun u => (u.1, u.2.map f)⟩ := by
  have hsort : ∀ unit, sortMethods ((ms.map f).filter (·.unit == unit)) =
      (sortMethods (ms.filter (·.unit == unit))).map f := by
    intro unit
    have hfilter : (ms.map f).filter (·.unit == unit) =
        (ms.filter (·.unit == unit)).map f := by
      simp only [List.filter_map, Function.comp_def, hunit]
    rw [hfilter]
    exact (map_sortBy (f := f) hname _).symm
  simp only [ofMethods, List.map_map, Function.comp_def, hsort, hgroup, hunit]

/-- No method is lost or repeated. -/
theorem methods_perm (ms : List Method) : (ofMethods ms).methods.Perm ms := by
  have hsort : ∀ unit, (sortMethods (ms.filter (·.unit == unit))).Perm
      (ms.filter (·.unit == unit)) := fun unit => sortBy_perm _ _
  have hparts := flatMap_filter_perm Method.unit (distinctNames_nodup (ms.map (·.unit)))
    fun m hm => mem_distinctNames.2 (List.mem_map.2 ⟨m, hm, rfl⟩)
  have hall := (List.Perm.flatMap_left (distinctNames (ms.map (·.unit)))
    fun unit _ => hsort unit).trans hparts
  simpa [methods, ofMethods, List.flatMap_map] using hall

end Plan

theorem generate_eq_ok_iff {c : Catalog} {s : Settings} {o : Output} :
    generate c s = .ok o ↔ ∃ t ms, Emission.Target.of s = .ok t ∧ Accepted c s ms ∧
      (Plan.ofMethods ms).render t s = .ok o := by
  unfold generate Plan.ofCatalog
  simp only [bind_eq_ok_iff, exists_unit_iff, validate_eq_ok_iff, pure_eq_ok_iff]
  constructor
  · rintro ⟨t, ht, ⟨ms, hacc⟩, p, ⟨ms', hms', rfl⟩, ho⟩
    obtain rfl : ms' = ms := Except.ok.inj (hms'.symm.trans hacc.methods)
    exact ⟨t, ms', ht, hacc, ho⟩
  · rintro ⟨t, ms, ht, hacc, ho⟩
    exact ⟨t, ht, ⟨ms, hacc⟩, _, ⟨ms, hacc.methods, rfl⟩, ho⟩

end Bindery
