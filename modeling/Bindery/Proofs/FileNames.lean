import Bindery.Proofs.Ordering

/-!
# The names of an output

Files are named after units, which are distinct identifiers: those of the plan, and those that are
reserved for the services and the index.
-/
namespace Bindery

theorem render_name {unit : String} {f : Source.File} {s : Settings} {file : OutputFile}
    (h : render unit f s = .ok file) : file.name = unit ++ ".rs" := by
  simp only [render, bind_eq_ok_iff, pure_eq_ok_iff] at h
  obtain ⟨_, -, _, -, rfl⟩ := h
  rfl

/-- The units of an output, in its order. -/
def Plan.unitNames (p : Plan) (s : Settings) : List String :=
  Emission.servicesUnit :: p.units.map (·.1) ++ if s.hasIndex then ["mod"] else []

theorem names_of_render {p : Plan} {t : Emission.Target} {s : Settings} {o : Output}
    (h : p.render t s = .ok o) : o.names = (p.unitNames s).map (· ++ ".rs") := by
  simp only [Plan.render, bind_eq_ok_iff, mapM_eq_ok_iff] at h
  obtain ⟨_, -, first, hfirst, files, hfiles, h⟩ := h
  have hunits : files.map (·.name) = p.units.map fun u => u.1 ++ ".rs" := by
    refine map_eq_of_forall₂ hfiles fun u _ f hf => ?_
    obtain ⟨_, -, hf⟩ := hf
    exact render_name hf
  have hindex : ∃ index, o = ⟨first :: files ++ index⟩ ∧
      index.map (·.name) = if s.hasIndex then ["mod.rs"] else [] := by
    split at h
    · rename_i hs
      simp only [bind_eq_ok_iff, pure_eq_ok_iff] at h
      obtain ⟨_, -, file, hfile, _, rfl, rfl⟩ := h
      exact ⟨[file], rfl, by simp [hs, render_name hfile]⟩
    · rename_i hs
      simp only [bind_eq_ok_iff, pure_eq_ok_iff] at h
      obtain ⟨_, rfl, rfl⟩ := h
      exact ⟨[], rfl, by simp [hs]⟩
  obtain ⟨index, rfl, hnames⟩ := hindex
  rw [Output.names, List.map_append, List.map_cons, hnames, hunits, render_name hfirst,
    Plan.unitNames, List.map_append, List.map_cons, List.map_map]
  congr 1
  split <;> simp

theorem isIdentifier_unit {e : Endpoint} {m : Method} (h : Validation.methodOf e = .ok m) :
    Naming.isIdentifier m.unit = true := by
  unfold Validation.methodOf at h
  obtain ⟨m', -, h⟩ := bind_eq_ok_iff.1 h
  dsimp only at h
  split at h
  · rename_i hchecks
    rw [pure_eq_ok_iff] at h
    subst h
    simp only [Bool.and_eq_true] at hchecks
    exact hchecks.2
  · exact absurd h throw_ne_ok

namespace Plan

variable {s : Settings} {ms : List Method}

theorem unitNames_ofMethods : (ofMethods ms).unitNames s = Emission.servicesUnit ::
    distinctNames (ms.map (·.unit)) ++ if s.hasIndex then ["mod"] else [] := by
  simp [unitNames, ofMethods, Function.comp_def]

theorem exists_method_of_unit {unit : String} (h : unit ∈ distinctNames (ms.map (·.unit))) :
    ∃ m ∈ ms, m.unit = unit := List.mem_map.1 (mem_distinctNames.1 h)

end Plan

namespace Accepted

variable {c : Catalog} {s : Settings} {ms : List Method} (h : Accepted c s ms)
include h

theorem isIdentifier_unit {m : Method} (hm : m ∈ ms) : Naming.isIdentifier m.unit = true := by
  obtain ⟨e, he, hof⟩ := exists_of_forall₂_right (mapM_eq_ok_iff.1 h.methods) hm
  obtain ⟨m', hm'⟩ := (h.fits e he).method
  obtain rfl : m' = m := Except.ok.inj ((Validation.methodOf_eq_ok hm').symm.trans hof)
  exact Bindery.isIdentifier_unit hm'

/-- The services and the index take the names that no unit has. -/
theorem units_nodup : ((Plan.ofMethods ms).unitNames s).Nodup := by
  have hfree : ∀ unit ∈ Validation.reservedUnits, unit ∉ distinctNames (ms.map (·.unit)) := by
    intro unit hreserved hu
    obtain ⟨m, hm, rfl⟩ := Plan.exists_method_of_unit hu
    exact h.units m hm hreserved
  have hservices := hfree Emission.servicesUnit (by decide)
  have hindex := hfree "mod" (by decide)
  have hdistinct := distinctNames_nodup (ms.map (·.unit))
  have hunits := List.nodup_cons.2 ⟨hservices, hdistinct⟩
  rw [Plan.unitNames_ofMethods]
  split
  · refine hunits.append (List.nodup_singleton _) (List.disjoint_singleton.2 ?_)
    exact List.not_mem_cons_of_ne_of_not_mem (by decide) hindex
  · rwa [List.append_nil]

theorem units_isIdentifier :
    ∀ unit ∈ (Plan.ofMethods ms).unitNames s, Naming.isIdentifier unit = true := by
  have hunits : ∀ unit ∈ distinctNames (ms.map (·.unit)), Naming.isIdentifier unit = true := by
    intro unit hu
    obtain ⟨m, hm, rfl⟩ := Plan.exists_method_of_unit hu
    exact h.isIdentifier_unit hm
  have hfixed : ∀ unit ∈ Validation.reservedUnits, Naming.isIdentifier unit = true := by
    decide +kernel
  rw [Plan.unitNames_ofMethods]
  intro unit hu
  rcases List.mem_append.1 hu with hu | hu
  · rcases List.mem_cons.1 hu with rfl | hu
    · exact hfixed _ (by decide)
    · exact hunits unit hu
  · split at hu
    · rw [List.mem_singleton.1 hu]
      exact hfixed _ (by decide)
    · cases hu

end Accepted

theorem exists_names {c : Catalog} {s : Settings} {o : Output} (h : generate c s = .ok o) :
    ∃ ms, Accepted c s ms ∧ o.names = ((Plan.ofMethods ms).unitNames s).map (· ++ ".rs") := by
  obtain ⟨t, ms, -, hacc, hrender⟩ := generate_eq_ok_iff.1 h
  exact ⟨ms, hacc, names_of_render hrender⟩

/-- The names follow from the plan alone. -/
theorem names_of_plan {c : Catalog} {s : Settings} {o : Output} {names : List String}
    (h : generate c s = .ok o) (hplan : (Plan.ofCatalog c).toOption.map
      (fun p => (p.unitNames s).map (· ++ ".rs")) = some names) : o.names = names := by
  obtain ⟨ms, hacc, hnames⟩ := exists_names h
  rw [hnames]
  rw [Plan.ofCatalog, hacc.methods] at hplan
  exact Option.some.inj hplan

end Bindery
