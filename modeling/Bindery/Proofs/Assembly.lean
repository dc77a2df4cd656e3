import Bindery.Proofs.Declarations

/-!
# The code of a catalog

Emitted code before it is laid out, and what it consists of: a service for each group of the catalog,
and the parts of its methods.
-/
namespace Bindery

open Emission Naming Source

/-- Emitted code before it is laid out. -/
structure Code where
  services : File
  units : List (String × File)

namespace Code

def ofPlan (t : Target) (p : Plan) : Except Failure Code := do
  let services ← Emission.services t p.groups
  let units ← p.units.mapM fun u => do return (u.1, ← unit t u.2)
  return ⟨services, units⟩

def ofCatalog (c : Catalog) (s : Settings) : Except Failure Code := do
  ofPlan (← Target.of s) (← Plan.ofCatalog c)

/-- The output lays out the code file by file, and may add an index. -/
def Renders (code : Code) (s : Settings) (o : Output) : Prop :=
  ∃ files index, o.files = files ++ index ∧ index.length = (if s.hasIndex then 1 else 0) ∧
    List.Forall₂ (fun u f => render u.1 u.2 s = .ok f)
      ((servicesUnit, code.services) :: code.units) files

/-- The items of all units. -/
def items (code : Code) : List Item := code.units.flatMap (·.2.items)

/-- The paths in all units. -/
def paths (code : Code) : List Path := code.items.flatMap Tree.paths

/-- The service types that are declared. -/
def declared (code : Code) : List String := code.services.items.filterMap structName?

/-- The service types that units mention. -/
def mentioned (code : Code) : List String := code.paths.filterMap serviceOf?

def callTypes (code : Code) : List String := code.items.filterMap structName?

/-- The functions that an item adds to a service, with the service. -/
def startedBy (i : Item) : List (String × String) :=
  match extended? i with
  | some service => (functionNames i).map (service, ·)
  | none => []

def constructors (code : Code) : List (String × String) := code.items.flatMap startedBy

/-! Code of a plan -/

variable {t : Target} {p : Plan} {code : Code}

theorem exists_parts_unit {ms : List Method} {f : File} (h : unit t ms = .ok f) :
    ∃ ps : List Parts, ps.map Parts.method = ms ∧ (∀ q ∈ ps, q.Fit t) ∧
      f.items = ps.flatMap (Parts.items t) := by
  simp only [unit, bind_eq_ok_iff, pure_eq_ok_iff, mapM_eq_ok_iff] at h
  obtain ⟨itemss, hcalls, rfl⟩ := h
  change ∃ ps : List Parts, ps.map Parts.method = ms ∧ (∀ q ∈ ps, q.Fit t) ∧
    itemss.flatten = ps.flatMap (Parts.items t)
  induction hcalls with
  | nil => exact ⟨[], rfl, by simp, rfl⟩
  | cons hcall _ ih =>
    obtain ⟨q, rfl, hfit, rfl⟩ := exists_parts hcall
    obtain ⟨ps, rfl, hfits, hitems⟩ := ih
    refine ⟨q :: ps, rfl, List.forall_mem_cons.2 ⟨hfit, hfits⟩, ?_⟩
    rw [List.flatten_cons, hitems, List.flatMap_cons]

/-- All units of a plan consist of the parts of its methods. -/
theorem exists_parts_ofPlan (h : ofPlan t p = .ok code) :
    ∃ ps : List Parts, ps.map Parts.method = p.methods ∧ (∀ q ∈ ps, q.Fit t) ∧
      code.items = ps.flatMap (Parts.items t) := by
  simp only [ofPlan, bind_eq_ok_iff, pure_eq_ok_iff, mapM_eq_ok_iff] at h
  obtain ⟨_, -, units, hunits, rfl⟩ := h
  rw [Plan.methods, items]
  generalize p.units = planned at hunits ⊢
  induction hunits with
  | nil => exact ⟨[], rfl, by simp, rfl⟩
  | cons hunit _ ih =>
    obtain ⟨f, hf, rfl⟩ := hunit
    obtain ⟨ps, hms, hfits, hitems⟩ := exists_parts_unit hf
    obtain ⟨rest, hrest, hfits', hitems'⟩ := ih
    refine ⟨ps ++ rest, ?_, ?_, ?_⟩
    · rw [List.map_append, hms, hrest, List.flatMap_cons]
    · exact fun q hq => (List.mem_append.1 hq).elim (hfits q) (hfits' q)
    · rw [List.flatMap_cons, hitems, hitems', List.flatMap_append]

/-- One service is declared for each group. -/
theorem declared_ofPlan (h : ofPlan t p = .ok code) : code.declared = p.groups.map serviceType := by
  simp only [ofPlan, Emission.services, bind_eq_ok_iff, pure_eq_ok_iff, mapM_eq_ok_iff] at h
  obtain ⟨_, ⟨items, hitems, rfl⟩, _, -, rfl⟩ := h
  have hservice : ∀ group item, service t group = .ok item →
      structName? item = some (serviceType group) := by
    intro group item hitem
    simp only [service, bind_eq_ok_iff, pure_eq_ok_iff] at hitem
    obtain ⟨name, hname, rfl⟩ := hitem
    rw [← spelledIdent_eq_ok hname]
    rfl
  have hnames : items.map structName? = p.groups.map fun group => some (serviceType group) :=
    map_eq_of_forall₂ hitems fun group _ item hitem => hservice group item hitem
  have hfilter : items.filterMap structName? = (items.map structName?).filterMap id := by
    rw [List.filterMap_map]
    rfl
  rw [declared, hfilter, hnames]
  simp

/-! Code of an accepted catalog -/

/-- Code that consists of the parts of accepted methods. -/
structure Assembled (c : Catalog) (s : Settings) (t : Target) (ps : List Parts) (code : Code) :
    Prop where
  accepted : ∃ ms, Accepted c s ms ∧ (ps.map Parts.method).Perm ms
  fit : ∀ q ∈ ps, q.Fit t
  items : code.items = ps.flatMap (Parts.items t)
  declared : code.declared = (distinctNames (ps.map (·.method.group))).map serviceType

namespace Assembled

variable {c : Catalog} {s : Settings} {ps : List Parts} (h : Assembled c s t ps code)
include h

theorem method_fits {q : Parts} (hq : q ∈ ps) :
    q.method.endpoint ∈ c.endpoints ∧ Validation.EndpointFits s q.method.endpoint ∧
      q.method.arguments.Perm q.method.endpoint.arguments := by
  obtain ⟨ms, hacc, hperm⟩ := h.accepted
  have hmem : q.method ∈ ms := hperm.mem_iff.1 (List.mem_map_of_mem hq)
  obtain ⟨e, he, hm⟩ := exists_of_forall₂_right (mapM_eq_ok_iff.1 hacc.methods) hmem
  have hend : q.method.endpoint = e := ofEndpoint_endpoint hm
  subst hend
  exact ⟨he, hacc.fits _ he, arguments_perm hm⟩

theorem mem_items {i : Item} : i ∈ code.items ↔ ∃ q ∈ ps, i ∈ q.items t := by
  rw [h.items, List.mem_flatMap]

end Assembled

/-- What is rendered for a plan is its code. -/
theorem exists_ofPlan {s : Settings} {o : Output} (h : p.render t s = .ok o) :
    ∃ code, ofPlan t p = .ok code ∧ code.Renders s o := by
  simp only [Plan.render, bind_eq_ok_iff, mapM_eq_ok_iff] at h
  obtain ⟨services, hservices, first, hfirst, files, hfiles, h⟩ := h
  have hindex : ∃ index, o = ⟨first :: files ++ index⟩ ∧
      index.length = (if s.hasIndex then 1 else 0) := by
    split at h
    · rename_i hs
      simp only [bind_eq_ok_iff, pure_eq_ok_iff] at h
      obtain ⟨_, -, file, -, _, rfl, rfl⟩ := h
      exact ⟨[file], rfl, by simp [hs]⟩
    · rename_i hs
      simp only [bind_eq_ok_iff, pure_eq_ok_iff] at h
      obtain ⟨_, rfl, rfl⟩ := h
      exact ⟨[], rfl, by simp [hs]⟩
  obtain ⟨index, rfl, hlength⟩ := hindex
  have hsteps : List.Forall₂ (fun u f => ∃ v : String × File,
      (∃ x, unit t u.2 = .ok x ∧ (u.1, x) = v) ∧ render v.1 v.2 s = .ok f) p.units files :=
    hfiles.imp fun u f ⟨x, hx, hf⟩ => ⟨(u.1, x), ⟨x, hx, rfl⟩, hf⟩
  obtain ⟨units, hunits, hrendered⟩ := exists_of_forall₂_comp hsteps
  refine ⟨⟨services, units⟩, ?_, first :: files, index, rfl, hlength, .cons hfirst hrendered⟩
  simp only [ofPlan, bind_eq_ok_iff, pure_eq_ok_iff, mapM_eq_ok_iff]
  exact ⟨services, hservices, units, hunits, rfl⟩

/-- What is generated is the code of a catalog, made of the parts of its methods. -/
theorem exists_assembled {c : Catalog} {s : Settings} {o : Output} (h : generate c s = .ok o) :
    ∃ t code ps, Target.of s = .ok t ∧ ofCatalog c s = .ok code ∧ code.Renders s o ∧
      Assembled c s t ps code := by
  obtain ⟨t, ms, ht, hacc, hrender⟩ := generate_eq_ok_iff.1 h
  obtain ⟨code, hcode, hrenders⟩ := exists_ofPlan hrender
  obtain ⟨ps, hmethods, hfit, hitems⟩ := exists_parts_ofPlan hcode
  have hperm : (ps.map Parts.method).Perm ms := hmethods ▸ Plan.methods_perm ms
  have hof : ofCatalog c s = .ok code := by
    simp only [ofCatalog, Plan.ofCatalog, bind_eq_ok_iff, pure_eq_ok_iff]
    exact ⟨t, ht, _, ⟨ms, hacc.methods, rfl⟩, hcode⟩
  have hdeclared : code.declared =
      (distinctNames (ps.map (·.method.group))).map serviceType := by
    rw [declared_ofPlan hcode]
    refine congrArg (List.map serviceType) (distinctNames_eq_of_mem fun group => ?_)
    have hgroups := (hperm.map (·.group)).mem_iff (a := group)
    rw [List.map_map] at hgroups
    exact hgroups.symm
  exact ⟨t, code, ps, ht, hof, hrenders, ⟨ms, hacc, hperm⟩, hfit, hitems, hdeclared⟩

end Code

end Bindery
