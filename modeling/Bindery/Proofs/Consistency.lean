import Bindery.Proofs.Assembly
import Bindery.Proofs.Totality

/-!
# Consistent output

What is generated holds together. Services, call types, the functions of a service, and the fields,
parameters and functions of a call are declared under names of their own, and what a unit mentions
as a service is one, unless the path comes with the catalog or the settings.
-/
namespace Bindery

open Emission Naming Source

namespace Code

/-- A path in a type that the catalog names, or in the runtime that the settings name. -/
def Foreign (c : Catalog) (t : Target) (p : Path) : Prop :=
  (∃ e ∈ c.endpoints, ∃ text ∈ Validation.typeTexts e, ∃ type : Ty,
    readType e.name text = .ok type ∧ p ∈ type.paths) ∨
  ∃ name ∈ runtimeNames, ∃ words, p ∈ (within t.runtime (name :: words)).paths

/-- No declaration clashes with another, and services are declared if and only if they are
mentioned; only foreign paths may lead to a service that there is not. -/
structure Consistent (c : Catalog) (t : Target) (code : Code) : Prop where
  services : code.declared.Nodup
  used : code.declared ⊆ code.mentioned
  resolved : ∀ p ∈ code.paths, ∀ name, serviceOf? p = some name →
    name ∈ code.declared ∨ Foreign c t p
  callTypes : code.callTypes.Nodup
  constructors : code.constructors.Nodup
  fields : ∀ i ∈ code.items, (fieldNames i).Nodup
  parameters : ∀ i ∈ code.items, ∀ f ∈ implemented i, (parameterNames f).Nodup
  functions : ∀ i ∈ code.items, (functionNames i).Nodup

/-- If no service path is foreign, services are declared if and only if they are mentioned. -/
theorem Consistent.mem_declared_iff {c : Catalog} {t : Target} {code : Code}
    (h : code.Consistent c t) (hforeign : ∀ p, Foreign c t p → serviceOf? p = none)
    (name : String) : name ∈ code.declared ↔ name ∈ code.mentioned := by
  refine ⟨fun hname => h.used hname, fun hname => ?_⟩
  obtain ⟨p, hp, hservice⟩ := List.mem_filterMap.1 hname
  refine (h.resolved p hp name hservice).resolve_right fun hf => ?_
  rw [hforeign p hf] at hservice
  cases hservice

/-! Code of an accepted catalog -/

namespace Assembled

variable {c : Catalog} {s : Settings} {t : Target} {ps : List Parts} {code : Code}
  (h : Assembled c s t ps code)
include h

theorem mem_declared {name : String} :
    name ∈ code.declared ↔ ∃ q ∈ ps, name = q.method.serviceType := by
  rw [h.declared, List.mem_map]
  constructor
  · rintro ⟨group, hgroup, rfl⟩
    obtain ⟨q, hq, rfl⟩ := List.mem_map.1 (mem_distinctNames.1 hgroup)
    exact ⟨q, hq, rfl⟩
  · rintro ⟨q, hq, rfl⟩
    exact ⟨q.method.group, mem_distinctNames.2 (List.mem_map_of_mem hq), rfl⟩

theorem services_nodup : code.declared.Nodup := by
  rw [h.declared]
  refine (distinctNames_nodup _).map fun group group' heq => ?_
  exact String.append_left_inj _ |>.1 heq

theorem callTypes_nodup : code.callTypes.Nodup := by
  obtain ⟨ms, hacc, hperm⟩ := h.accepted
  have hpart : ∀ q ∈ ps, (q.items t).filterMap structName? = [q.method.callType] := by
    intro q hq
    rw [← spelledIdent_eq_ok (h.fit q hq).name]
    rfl
  have hnames : code.callTypes = (ps.map Parts.method).map Method.callType := by
    rw [callTypes, h.items, List.filterMap_flatMap, List.flatMap_congr hpart, List.map_map]
    exact List.map_eq_flatMap.symm
  rw [hnames]
  exact (hperm.map _).nodup_iff.2 hacc.callTypes

theorem constructors_nodup : code.constructors.Nodup := by
  obtain ⟨ms, hacc, hperm⟩ := h.accepted
  have hpart : ∀ q ∈ ps, (q.items t).flatMap startedBy =
      [(q.method.serviceType, escapeName q.method.constructor)] := by
    intro q hq
    have hstarted : (q.items t).flatMap startedBy = [(q.serviceName.text, q.constructor.text)] := by
      have hservice : startedBy q.serviceItem = [(q.serviceName.text, q.constructor.text)] := rfl
      have hothers : startedBy q.callItem = [] ∧ startedBy (q.functionsItem t) = [] := ⟨rfl, rfl⟩
      simp only [Parts.items, List.flatMap_cons, hservice, hothers, List.flatMap_nil]
      rfl
    rw [hstarted, spelledIdent_eq_ok (h.fit q hq).serviceName,
      (nameIdent_eq_ok (h.fit q hq).constructor).1]
  have hnames : code.constructors =
      ((ps.map Parts.method).map fun m => (m.group, m.constructor)).map
        fun k => (serviceType k.1, escapeName k.2) := by
    rw [constructors, h.items, List.flatMap_assoc, List.flatMap_congr hpart, List.map_map,
      List.map_map]
    exact List.map_eq_flatMap.symm
  have hunmarked : ∀ k ∈ (ps.map Parts.method).map fun m => (m.group, m.constructor),
      Unmarked k.2 := by
    intro k hk
    simp only [List.map_map, List.mem_map] at hk
    obtain ⟨q, hq, rfl⟩ := hk
    exact unmarked_snakeCase (nameIdent_eq_ok (h.fit q hq).constructor).2
  rw [hnames]
  refine List.Nodup.map_on ?_ ((hperm.map _).nodup_iff.2 hacc.constructors)
  intro k hk k' hk' heq
  obtain ⟨hgroup, hname⟩ := Prod.mk.inj heq
  exact Prod.ext (String.append_left_inj _ |>.1 hgroup)
    (escapeName_injective (hunmarked k hk) (hunmarked k' hk') hname)

theorem forall_items {P : Item → Prop}
    (hparts : ∀ q ∈ ps, P q.callItem ∧ P q.serviceItem ∧ P (q.functionsItem t)) :
    ∀ i ∈ code.items, P i := by
  intro i hi
  obtain ⟨q, hq, hi⟩ := h.mem_items.1 hi
  obtain ⟨hcall, hservice, hfunctions⟩ := hparts q hq
  simp only [Parts.items, List.mem_cons, List.not_mem_nil, or_false] at hi
  rcases hi with rfl | rfl | rfl
  · exact hcall
  · exact hservice
  · exact hfunctions

theorem fields_nodup : ∀ i ∈ code.items, (fieldNames i).Nodup := by
  refine h.forall_items fun q hq => ?_
  obtain ⟨-, hends, hperm⟩ := h.method_fits hq
  exact ⟨Parts.fieldNames_nodup (h.fit q hq) hends hperm, List.nodup_nil, List.nodup_nil⟩

theorem functions_nodup : ∀ i ∈ code.items, (functionNames i).Nodup := by
  refine h.forall_items fun q hq => ?_
  obtain ⟨-, hends, hperm⟩ := h.method_fits hq
  exact ⟨List.nodup_nil, List.nodup_singleton _,
    Parts.functionNames_nodup (h.fit q hq) hends hperm⟩

theorem parameters_nodup : ∀ i ∈ code.items, ∀ f ∈ implemented i, (parameterNames f).Nodup := by
  intro i hi
  obtain ⟨q, hq, hi⟩ := h.mem_items.1 hi
  obtain ⟨-, hends, hperm⟩ := h.method_fits hq
  exact Parts.parameterNames_nodup (h.fit q hq) hends hperm i hi

/-- Each service is mentioned where its functions are added to it. -/
theorem declared_subset : code.declared ⊆ code.mentioned := by
  intro name hname
  obtain ⟨q, hq, rfl⟩ := h.mem_declared.1 hname
  have hmem : servicePath q.serviceName ∈ q.serviceItem.paths :=
    Tree.mem_paths_implOf (Tree.mem_paths_self _) _
  rw [← spelledIdent_eq_ok (h.fit q hq).serviceName]
  refine List.mem_filterMap.2
    ⟨_, List.mem_flatMap.2 ⟨q.serviceItem, ?_, hmem⟩, serviceOf?_servicePath _⟩
  exact h.mem_items.2 ⟨q, hq, by simp [Parts.items]⟩

/-- Paths are either foreign or do not lead to services that are not declared. -/
theorem resolved : ∀ p ∈ code.paths, ∀ name, serviceOf? p = some name →
    name ∈ code.declared ∨ Foreign c t p := by
  have hlenient : Lenient t fun p => ∀ name, serviceOf? p = some name →
      name ∈ code.declared ∨ Foreign c t p := by
    refine ⟨fun rooted segments hlen name hname => ?_, fun w hw words p hp name _ => ?_⟩
    · rw [serviceOf?_of_length_lt hlen] at hname
      cases hname
    · exact .inr (.inr ⟨w, hw, words, hp⟩)
  intro p hp
  obtain ⟨i, hi, hp⟩ := List.mem_flatMap.1 hp
  obtain ⟨q, hq, hi⟩ := h.mem_items.1 hi
  obtain ⟨hend, -, hperm⟩ := h.method_fits hq
  refine items_all hlenient (h.fit q hq) (fun a ha => hperm.mem_iff.1 ha) ?_ ?_ i hi p hp
  · exact fun text htext type hread p hp name _ =>
      .inr (.inl ⟨_, hend, text, htext, type, hread, hp⟩)
  · intro name hname
    rw [serviceOf?_servicePath, Option.some.injEq] at hname
    rw [← hname, spelledIdent_eq_ok (h.fit q hq).serviceName]
    exact .inl (h.mem_declared.2 ⟨q, hq, rfl⟩)

theorem consistent : code.Consistent c t :=
  ⟨h.services_nodup, h.declared_subset, h.resolved, h.callTypes_nodup, h.constructors_nodup,
    h.fields_nodup, h.parameters_nodup, h.functions_nodup⟩

end Assembled

end Code

/-- The code of every catalog that something is generated for is consistent. -/
theorem generate_consistent {c : Catalog} {s : Settings} {o : Output} (h : generate c s = .ok o) :
    ∃ t code, Target.of s = .ok t ∧ Code.ofCatalog c s = .ok code ∧ code.Renders s o ∧
      code.Consistent c t := by
  obtain ⟨t, code, ps, ht, hcode, hrenders, hassembled⟩ := Code.exists_assembled h
  exact ⟨t, code, ht, hcode, hrenders, hassembled.consistent⟩

theorem archive_consistent : ∃ o, generate .archive {} = .ok o ∧
    ∃ t code, Target.of {} = .ok t ∧ Code.ofCatalog .archive {} = .ok code ∧
      code.Renders {} o ∧ code.Consistent .archive t := by
  obtain ⟨o, ho⟩ := exists_generate_archive
  exact ⟨o, ho, generate_consistent ho⟩

/-- A catalog that names a type as if it were a service. -/
def Catalog.stray : Catalog := ⟨[{ name := "a.b", returnType := "super::services::Nope" }]⟩

/-- Settings that look for the runtime among the services. -/
def Settings.stray : Settings := { runtime := "super::services" }

theorem exists_generate_stray : ∃ o, generate .stray .stray = .ok o :=
  generate_succeeds_of_ascii (eq_ok_of_toOption (by decide +kernel)) (by decide +kernel)
    (by decide +kernel) (by decide +kernel)

/-- A service that is mentioned is not always declared: its path may come with the catalog, and it
may come with the settings. -/
theorem stray_not_declared : ∃ o code, generate .stray .stray = .ok o ∧
    Code.ofCatalog .stray .stray = .ok code ∧ code.Renders .stray o ∧
      ("Nope" ∈ code.mentioned ∧ "Nope" ∉ code.declared) ∧
      ("Values" ∈ code.mentioned ∧ "Values" ∉ code.declared) ∧
      ¬ ∀ name, name ∈ code.declared ↔ name ∈ code.mentioned := by
  have hstray : ∀ name ∈ ["Nope", "Values"],
      ((Code.ofCatalog .stray .stray).toOption.all fun code =>
        code.mentioned.contains name && !code.declared.contains name) = true := by decide +kernel
  obtain ⟨o, ho⟩ := exists_generate_stray
  obtain ⟨_, code, _, -, hcode, hrenders, -⟩ := Code.exists_assembled ho
  have hnames : ∀ name ∈ ["Nope", "Values"], name ∈ code.mentioned ∧ name ∉ code.declared := by
    intro name hname
    have hcontains := hstray name hname
    rw [hcode] at hcontains
    simpa [Except.toOption] using hcontains
  have hnope := hnames "Nope" (by simp)
  refine ⟨o, code, ho, hcode, hrenders, hnope, hnames "Values" (by simp), fun hexact => ?_⟩
  exact hnope.2 ((hexact "Nope").2 hnope.1)

end Bindery
