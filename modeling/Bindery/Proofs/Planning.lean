import Bindery.Proofs.Acceptability
import Bindery.Proofs.Ordering

/-!
# What a plan holds

A plan can be made for a catalog whose names all have dots, and refuses the first name without one.
It deals the endpoints out to units by their namespaces: each endpoint once, sorted, and those that
share a name in the order of the catalog. Namespaces that differ only in a dot for an underscore
share a unit. Endpoints that are dealt one by one, with the units sorted at the end, make the same
plan.
-/
namespace Bindery

/-! Stable sorting -/

/-- A list holds what another one does, sorted by a name. What shares a name keeps its order. -/
structure SortedCopy {α : Type} (name : α → String) (xs ys : List α) : Prop where
  perm : ys.Perm xs
  sorted : ys.Pairwise fun a b => name a ≤ name b
  stable : ∀ n, ys.filter (name · == n) = xs.filter (name · == n)

section Sorting

variable {α β : Type} {name : α → String}

theorem filter_sortBy (xs : List α) (n : String) :
    (sortBy name xs).filter (name · == n) = xs.filter (name · == n) := by
  have hequal : (xs.filter (name · == n)).Pairwise fun a b => decide (name a ≤ name b) = true := by
    refine List.pairwise_of_forall_mem_list fun a ha b hb => ?_
    rw [beq_iff_eq.1 (List.mem_filter.1 ha).2, beq_iff_eq.1 (List.mem_filter.1 hb).2]
    exact decide_eq_true (String.le_refl n)
  have hkept : (xs.filter (name · == n)).Sublist (sortBy name xs) := by
    refine List.sublist_mergeSort ?_ ?_ hequal List.filter_sublist
    · intro a b c hab hbc
      rw [decide_eq_true_eq] at hab hbc ⊢
      exact String.le_trans hab hbc
    · intro a b
      rw [Bool.or_eq_true, decide_eq_true_eq, decide_eq_true_eq]
      exact String.le_total _ _
  have hall := hkept.filter (name · == n)
  simp only [List.filter_filter, Bool.and_self] at hall
  exact (hall.eq_of_length ((sortBy_perm name xs).filter _).length_eq.symm).symm

theorem sortedCopy_sortBy (xs : List α) : SortedCopy name xs (sortBy name xs) :=
  ⟨sortBy_perm name xs, sortBy_pairwise name xs, filter_sortBy xs⟩

/-- Sorted copies of what is sorted by names of its own. -/
theorem SortedCopy.map {f : α → β} {other : β → String} {xs ys : List α}
    (h : SortedCopy (fun a => other (f a)) xs ys) : SortedCopy other (xs.map f) (ys.map f) where
  perm := h.perm.map f
  sorted := List.pairwise_map.2 h.sorted
  stable n := by
    rw [List.filter_map, List.filter_map]
    exact congrArg (List.map f) (h.stable n)

end Sorting

/-! Values computed from names -/

namespace Keyed

variable {β : Type}

theorem lookup_map_pair {names : List String} {f : String → β} (key : String) :
    (names.map fun n => (n, f n)).lookup key = if key ∈ names then some (f key) else none := by
  induction names with
  | nil => rfl
  | cons n rest ih =>
    rw [List.map_cons, List.lookup_cons]
    by_cases h : key = n
    · simp [h]
    · simp [h, beq_eq_false_iff_ne.2 h, ih]

/-- A value put under a name, where the names stand with values that are computed from them. -/
theorem put_map_pair {names : List String} (h : names.Pairwise (· < ·)) {f g : String → β}
    {key : String} (hother : ∀ n ∈ names, n ≠ key → g n = f n) :
    Keyed.put key (g key) (names.map fun n => (n, f n)) =
      (insertName key names).map fun n => (n, g n) := by
  have hsame : ∀ rest : List String, (∀ n ∈ rest, g n = f n) →
      (rest.map fun n => (n, f n)) = rest.map fun n => (n, g n) := fun rest hrest =>
    List.map_congr_left fun n hn => by rw [hrest n hn]
  induction names with
  | nil => rfl
  | cons n rest ih =>
    have ⟨hn, hrest⟩ := List.pairwise_cons.1 h
    rw [List.map_cons, Keyed.put, insertName]
    split
    · rename_i hlt
      have hbehind : ∀ k ∈ n :: rest, g k = f k := by
        refine fun k hk => hother k hk ?_
        rintro rfl
        rcases List.mem_cons.1 hk with rfl | hk
        · exact String.lt_irrefl _ hlt
        · exact String.lt_asymm hlt (hn _ hk)
      rw [List.map_cons, ← hsame _ hbehind, List.map_cons]
    · split
      · rename_i heq
        subst heq
        have hbehind : ∀ k ∈ rest, g k = f k := by
          refine fun k hk => hother k (List.mem_cons_of_mem _ hk) ?_
          rintro rfl
          exact String.lt_irrefl _ (hn _ hk)
        rw [hsame _ hbehind]
        simp
      · rename_i hne
        have hfirst : g n = f n := hother n List.mem_cons_self fun heq => hne heq.symm
        rw [ih hrest fun k hk => hother k (List.mem_cons_of_mem _ hk)]
        simp [hne, hfirst]

end Keyed

/-! Methods -/

section

variable {e : Endpoint}

theorem ofEndpoint_of_dot (h : '.' ∈ e.name.toList) : Method.ofEndpoint e = .ok e.method := by
  have hns : ∃ ns, e.namespace? = some ns := by
    simp [Endpoint.namespace?, splitLast?, h]
  obtain ⟨ns, hns⟩ := hns
  exact ofEndpoint_of_namespace hns

theorem ofEndpoint_of_no_dot (h : '.' ∉ e.name.toList) :
    Method.ofEndpoint e = .error (.endpointName e.name) := by
  have hns : e.namespace? = none := by simp [Endpoint.namespace?, splitLast?, h]
  simp [Method.ofEndpoint, hns]

end

/-- The arguments of a method by whether they are required, each part in the order of the whole. -/
structure Method.Parted (m : Method) : Prop where
  required : ∀ a ∈ m.required, a.required = true
  optional : ∀ a ∈ m.optional, a.required = false
  requiredOrder : m.required.Sublist m.arguments
  optionalOrder : m.optional.Sublist m.arguments
  whole : (m.required ++ m.optional).Perm m.arguments

theorem Method.isParted (m : Method) : m.Parted where
  required a ha := (List.mem_filter.1 ha).2
  optional a ha := by simpa using (List.mem_filter.1 ha).2
  requiredOrder := List.filter_sublist
  optionalOrder := List.filter_sublist
  whole := List.filter_append_perm _ _

/-! Plans -/

namespace Plan

/-- A plan arranges all endpoints of a catalog. -/
structure Arranges (p : Plan) (c : Catalog) : Prop where
  /-- No endpoint is lost or repeated. -/
  whole : (p.methods.map (·.endpoint)).Perm c.endpoints
  methods : ∀ m ∈ p.methods, Method.ofEndpoint m.endpoint = .ok m
  /-- A unit is named by the namespace of each of its endpoints. -/
  places : ∀ u ∈ p.units, ∀ m ∈ u.2, ∃ ns procedure, m.endpoint.name = ns ++ "." ++ procedure ∧
    '.' ∉ procedure.toList ∧ u.1 = unitOf ns
  units : (p.units.map (·.1)).Pairwise (· < ·)
  /-- A unit holds the endpoints that belong to it, sorted by their names. -/
  sorted : ∀ u ∈ p.units, SortedCopy (·.name) (c.endpoints.filter (·.unit? == some u.1))
    (u.2.map (·.endpoint))
  groups : p.groups.Pairwise (· < ·)
  group : ∀ g, g ∈ p.groups ↔ ∃ m ∈ p.methods, m.group = g
  arguments : ∀ m ∈ p.methods, SortedCopy (·.name) m.endpoint.arguments m.arguments
  parted : ∀ m ∈ p.methods, m.Parted

variable {c : Catalog} {ms : List Method} {u : String × List Method} {m : Method}

theorem mem_units_ofMethods (h : u ∈ (ofMethods ms).units) :
    u.2 = sortBy (·.endpoint.name) (ms.filter (·.unit == u.1)) := by
  obtain ⟨unit, -, rfl⟩ := List.mem_map.1 h
  exact sortMethods_eq _

theorem mem_of_mem_unit (h : u ∈ (ofMethods ms).units) (hm : m ∈ u.2) : m ∈ ms ∧ m.unit = u.1 := by
  rw [mem_units_ofMethods h, (sortBy_perm _ _).mem_iff, List.mem_filter, beq_iff_eq] at hm
  exact hm

theorem ofMethods_arranges (h : c.endpoints.mapM Method.ofEndpoint = .ok ms) :
    (ofMethods ms).Arranges c := by
  have hperm := methods_perm ms
  have hof : ∀ m ∈ ms, Method.ofEndpoint m.endpoint = .ok m := by
    intro m hm
    obtain ⟨e, -, he⟩ := exists_of_forall₂_right (mapM_eq_ok_iff.1 h) hm
    rwa [ofEndpoint_endpoint he]
  have hunit : ∀ m ∈ ms, m.endpoint.unit? = some m.unit := by
    intro m hm
    obtain ⟨ns, hns⟩ := exists_namespace (hof m hm)
    have hspace : m.endpoint.space = ns := by simp [Endpoint.space, hns]
    rw [Endpoint.unit?, hns, Option.map_some, (names_of_ofEndpoint (hof m hm)).2.2, hspace]
  refine ⟨?_, fun m hm => hof m (hperm.mem_iff.1 hm), fun u hu m hm => ?_, ?_, fun u hu => ?_,
    distinctNames_pairwise _, fun g => ?_, fun m hm => ?_, fun m _ => m.isParted⟩
  · rw [← Validation.map_endpoint h]
    exact hperm.map _
  · obtain ⟨hmem, hplace⟩ := mem_of_mem_unit hu hm
    obtain ⟨ns, hns⟩ := exists_namespace (hof m hmem)
    obtain ⟨hname, hprocedure⟩ := name_eq_of_namespace hns
    exact ⟨_, _, hname, hprocedure, hplace ▸ (names_of_ofEndpoint (hof m hmem)).2.2⟩
  · have hnames : (ofMethods ms).units.map (·.1) = distinctNames (ms.map (·.unit)) := by
      simp [ofMethods, Function.comp_def]
    rw [hnames]
    exact distinctNames_pairwise _
  · have hmine : (c.endpoints.filter (·.unit? == some u.1)) =
        (ms.filter (·.unit == u.1)).map (·.endpoint) := by
      rw [← Validation.map_endpoint h, List.filter_map]
      refine congrArg _ (List.filter_congr fun m hm => ?_)
      simp [hunit m hm]
    rw [hmine, mem_units_ofMethods hu]
    exact (sortedCopy_sortBy _).map
  · simp only [ofMethods, mem_distinctNames, List.mem_map]
    exact exists_congr fun m => and_congr_left' hperm.mem_iff.symm
  · rw [ofEndpoint_arguments (hof m (hperm.mem_iff.1 hm)), sortArguments_eq]
    exact sortedCopy_sortBy _

/-- The first name without a dot ends the planning. -/
theorem mapM_ofEndpoint_append {front back : List Endpoint} {e : Endpoint}
    (hfront : ∀ d ∈ front, '.' ∈ d.name.toList) (he : '.' ∉ e.name.toList) :
    (front ++ e :: back).mapM Method.ofEndpoint = .error (.endpointName e.name) := by
  induction front with
  | nil => rw [List.nil_append, List.mapM_cons, ofEndpoint_of_no_dot he]; rfl
  | cons d rest ih =>
    obtain ⟨hd, hrest⟩ := List.forall_mem_cons.1 hfront
    rw [List.cons_append, List.mapM_cons, ofEndpoint_of_dot hd, ih hrest]
    rfl

/-- All names have dots, or there is a first one that has none. -/
theorem dots_or_first (es : List Endpoint) : (∀ e ∈ es, '.' ∈ e.name.toList) ∨
    ∃ front e back, es = front ++ e :: back ∧ (∀ d ∈ front, '.' ∈ d.name.toList) ∧
      '.' ∉ e.name.toList := by
  induction es with
  | nil => exact .inl (by simp)
  | cons e rest ih =>
    by_cases he : '.' ∈ e.name.toList
    · refine ih.imp (fun h => List.forall_mem_cons.2 ⟨he, h⟩) ?_
      rintro ⟨front, d, back, rfl, hfront, hd⟩
      exact ⟨e :: front, d, back, rfl, List.forall_mem_cons.2 ⟨he, hfront⟩, hd⟩
    · exact .inr ⟨[], e, rest, rfl, by simp, he⟩

/-- A catalog is refused for the first name without a dot, and only for such a name. A plan
arranges the catalog that it is made for. -/
theorem ofCatalog_spec (c : Catalog) :
    (∀ why, ofCatalog c = .error why ↔ ∃ front e back, c.endpoints = front ++ e :: back ∧
      (∀ d ∈ front, '.' ∈ d.name.toList) ∧ '.' ∉ e.name.toList ∧ why = .endpointName e.name) ∧
    ∀ p, ofCatalog c = .ok p → p.Arranges c := by
  constructor
  · intro why
    constructor
    · intro h
      rcases dots_or_first c.endpoints with hdots | ⟨front, e, back, hes, hfront, he⟩
      · have hall : c.endpoints.mapM Method.ofEndpoint =
            .ok (c.endpoints.map Endpoint.method) := by
          rw [mapM_eq_ok_iff, List.forall₂_map_right_iff, List.forall₂_same]
          exact fun e he => ofEndpoint_of_dot (hdots e he)
        rw [ofCatalog, hall] at h
        cases h
      · rw [ofCatalog, hes, mapM_ofEndpoint_append hfront he] at h
        cases h
        exact ⟨front, e, back, hes, hfront, he, rfl⟩
    · rintro ⟨front, e, back, hes, hfront, he, rfl⟩
      rw [ofCatalog, hes, mapM_ofEndpoint_append hfront he]
      rfl
  · intro p h
    obtain ⟨ms, hms, hp⟩ := bind_eq_ok_iff.1 h
    obtain rfl := pure_eq_ok_iff.1 hp
    exact ofMethods_arranges hms

/-- Two namespaces that share a unit, and two endpoints that share a name. -/
def mergedCatalog : Catalog := ⟨[
  { name := "b.x" }, { name := "a_b.y" },
  { name := "a.b.z", arguments := [⟨"n", .text, true, "", "", "", none⟩] }, { name := "a.b.z" }]⟩

theorem merged_arranged : ∃ p, ofCatalog mergedCatalog = .ok p ∧
    p.units.map (·.1) = ["a_b", "b"] ∧ p.Arranges mergedCatalog := by
  have hunits : (ofCatalog mergedCatalog).toOption.map (·.units.map (·.1)) = some ["a_b", "b"] := by
    decide +kernel
  obtain ⟨p, hp, hunits⟩ := Option.map_eq_some_iff.1 hunits
  have hplan : ofCatalog mergedCatalog = .ok p := eq_ok_of_toOption hp
  exact ⟨p, hplan, hunits, (ofCatalog_spec mergedCatalog).2 p hplan⟩

/-! Plans endpoint by endpoint -/

/-- Puts one more method behind those of its unit. -/
def deal (p : Plan) (m : Method) : Plan where
  groups := insertName m.group p.groups
  units := Keyed.put m.unit ((p.units.lookup m.unit).getD [] ++ [m]) p.units

/-- Sorts the methods of each unit. -/
def sorted (p : Plan) : Plan := { p with units := p.units.map fun u => (u.1, sortMethods u.2) }

theorem insertName_distinctNames (name : String) (names : List String) :
    insertName name (distinctNames names) = distinctNames (names ++ [name]) :=
  show distinctNames (name :: names) = _ from distinctNames_eq_of_mem fun n => by simp [or_comm]

/-- What has been dealt lies in its units in the order in which it came. -/
theorem foldl_deal (ms : List Method) : ms.foldl deal ⟨[], []⟩ =
    ⟨distinctNames (ms.map (·.group)), (distinctNames (ms.map (·.unit))).map fun unit =>
      (unit, ms.filter (·.unit == unit))⟩ := by
  induction ms using List.reverseRecOn with
  | nil => rfl
  | append_singleton ms m ih =>
    have hbucket : ((if m.unit ∈ distinctNames (ms.map (·.unit)) then
        some (ms.filter (·.unit == m.unit)) else none).getD []) =
        ms.filter (·.unit == m.unit) := by
      split
      · rfl
      · rename_i hnew
        rw [mem_distinctNames, List.mem_map] at hnew
        exact (List.filter_eq_nil_iff.2 fun k hk heq => hnew ⟨k, hk, beq_iff_eq.1 heq⟩).symm
    have hmine : ms.filter (·.unit == m.unit) ++ [m] =
        (ms ++ [m]).filter (·.unit == m.unit) := by simp
    have hothers : ∀ n ∈ distinctNames (ms.map (·.unit)), n ≠ m.unit →
        (ms ++ [m]).filter (·.unit == n) = ms.filter (·.unit == n) := by
      intro n _ hn
      simp [hn.symm]
    rw [List.foldl_append, List.foldl_cons, List.foldl_nil, ih, deal, Keyed.lookup_map_pair,
      hbucket, hmine, Keyed.put_map_pair (g := fun n => (ms ++ [m]).filter (·.unit == n))
        (distinctNames_pairwise _) hothers,
      insertName_distinctNames, insertName_distinctNames]
    simp

theorem sorted_foldl_deal (ms : List Method) : (ms.foldl deal ⟨[], []⟩).sorted = ofMethods ms := by
  simp [foldl_deal, sorted, ofMethods, Function.comp_def]

/-- A plan can be made endpoint by endpoint, and each unit sorted at the end. -/
theorem ofCatalog_eq_foldlM (c : Catalog) : ofCatalog c =
    (c.endpoints.foldlM (fun p e => do return deal p (← Method.ofEndpoint e)) ⟨[], []⟩).map
      sorted := by
  have hdealt : ∀ (es : List Endpoint) (p : Plan),
      es.foldlM (fun p e => do return deal p (← Method.ofEndpoint e)) p =
        (es.mapM Method.ofEndpoint).map fun ms => ms.foldl deal p := by
    intro es
    induction es with
    | nil => exact fun p => rfl
    | cons e rest ih =>
      intro p
      rw [List.foldlM_cons, List.mapM_cons]
      cases Method.ofEndpoint e with
      | error why => rfl
      | ok m =>
        refine (ih (deal p m)).trans ?_
        cases rest.mapM Method.ofEndpoint with
        | error why => rfl
        | ok ms => rfl
  rw [hdealt, ofCatalog]
  cases c.endpoints.mapM Method.ofEndpoint with
  | error why => rfl
  | ok ms => exact congrArg Except.ok (sorted_foldl_deal ms).symm

end Plan

end Bindery
