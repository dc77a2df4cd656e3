import Bindery.Proofs.Ordering
import Bindery.Proofs.Totality

/-!
# Catalogs in another order

A catalog may list its endpoints, and an endpoint its arguments, in any order: what is generated
stays the same to the last character. Code is emitted for plans, and a plan reads the arguments of
an endpoint only after sorting them, so that all code can be emitted from methods whose endpoints
have forgotten their arguments.
-/
namespace Bindery

/-- The same endpoint with its arguments in another order. -/
def Endpoint.Reordered (e e' : Endpoint) : Prop :=
  ∃ args, e.arguments.Perm args ∧ e' = { e with arguments := args }

/-- The same endpoints in another order, each with its arguments in another order. -/
def Catalog.Reordered (c c' : Catalog) : Prop :=
  ∃ es, c.endpoints.Perm es ∧ List.Forall₂ Endpoint.Reordered es c'.endpoints

namespace Endpoint.Reordered

variable {e e' : Endpoint}

theorem symm (h : e.Reordered e') : e'.Reordered e := by
  obtain ⟨args, hperm, rfl⟩ := h
  exact ⟨e.arguments, hperm.symm, rfl⟩

theorem name_eq (h : e.Reordered e') : e'.name = e.name := by
  obtain ⟨args, -, rfl⟩ := h
  rfl

theorem arguments_perm (h : e.Reordered e') : e.arguments.Perm e'.arguments := by
  obtain ⟨args, hperm, rfl⟩ := h
  exact hperm

end Endpoint.Reordered

theorem Catalog.Reordered.symm {c c' : Catalog} (h : c.Reordered c') : c'.Reordered c := by
  obtain ⟨es, hperm, hargs⟩ := h
  obtain ⟨es', hback, hperm'⟩ := List.perm_comp_forall₂ hperm hargs
  exact ⟨es', hperm'.symm, hback.flip.imp fun _ _ h => Endpoint.Reordered.symm h⟩

/-! Methods -/

/-- A method whose endpoint has forgotten its arguments; the method itself keeps them, sorted. -/
def Method.bare (m : Method) : Method := { m with endpoint := { m.endpoint with arguments := [] } }

/-- The arguments of a method are sorted, so only their order in the endpoint can change. -/
theorem ofEndpoint_reordered {e e' : Endpoint} (h : e.Reordered e')
    (hn : (e.arguments.map (·.name)).Nodup) {m : Method} (hm : Method.ofEndpoint e = .ok m) :
    Method.ofEndpoint e' = .ok { m with endpoint := e' } := by
  obtain ⟨args, hperm, rfl⟩ := h
  have hsort : sortArguments args = sortArguments e.arguments := by
    rw [sortArguments_eq, sortArguments_eq]
    exact (sortBy_eq_of_perm hperm hn).symm
  have hnamespace : Endpoint.namespace? { e with arguments := args } = e.namespace? := rfl
  have hmethod : Endpoint.method? { e with arguments := args } = e.method? := rfl
  have hunit : Endpoint.unit? { e with arguments := args } = e.unit? := rfl
  unfold Method.ofEndpoint at hm ⊢
  split at hm
  · rename_i ns name unit hns hname hpath
    rw [hnamespace, hmethod, hunit, hns, hname, hpath]
    simp only [hsort, Except.ok.injEq] at hm ⊢
    rw [← hm]
  · simp at hm

theorem methodOf_reordered {e e' : Endpoint} (h : e.Reordered e')
    (hn : (e.arguments.map (·.name)).Nodup) {m : Method} (hm : Validation.methodOf e = .ok m) :
    Validation.methodOf e' = .ok { m with endpoint := e' } := by
  have hplan := Validation.methodOf_eq_ok hm
  have hplan' := ofEndpoint_reordered h hn hplan
  have hns : e'.namespace? = e.namespace? := by rw [Endpoint.namespace?, h.name_eq]; rfl
  unfold Validation.methodOf at hm ⊢
  rw [hplan] at hm
  rw [hplan', hns]
  change (if _ then pure m else throw _) = _ at hm
  change (if _ then pure _ else throw _) = _
  split at hm
  · rename_i hok
    rw [if_pos hok]
    rfl
  · exact absurd hm throw_ne_ok

/-! Validation -/

theorem argumentFits_reordered {s : Settings} {e e' : Endpoint} (h : e.Reordered e') {a : Argument}
    (ha : Validation.ArgumentFits s e a) : Validation.ArgumentFits s e' a := by
  obtain ⟨args, -, rfl⟩ := h
  exact ⟨ha.identifier, ha.notService, ha.notToken, ha.setters⟩

theorem typeTexts_perm {e e' : Endpoint} (h : e.Reordered e') :
    (Validation.typeTexts e).Perm (Validation.typeTexts e') := by
  obtain ⟨args, hperm, rfl⟩ := h
  exact (hperm.filterMap _).append_right _

theorem endpointFits_reordered {s : Settings} {e e' : Endpoint} (h : e.Reordered e')
    (hfits : Validation.EndpointFits s e) : Validation.EndpointFits s e' where
  method := by
    obtain ⟨m, hm⟩ := hfits.method
    exact ⟨_, methodOf_reordered h hfits.names hm⟩
  arguments a ha :=
    argumentFits_reordered h (hfits.arguments a (h.arguments_perm.mem_iff.2 ha))
  names := (h.arguments_perm.map _).nodup_iff.1 hfits.names
  fields := (h.arguments_perm.map _).nodup_iff.1 hfits.fields
  setters := (h.arguments_perm.flatMap_right _).nodup_iff.1 hfits.setters
  types type htype := by
    rw [h.name_eq]
    exact hfits.types type ((typeTexts_perm h).mem_iff.2 htype)

theorem map_name_reordered {es es' : List Endpoint} (h : List.Forall₂ Endpoint.Reordered es es') :
    es'.map (·.name) = es.map (·.name) :=
  map_eq_of_forall₂ h fun _ _ _ he => he.name_eq

/-- The methods of endpoints with reordered arguments differ in these endpoints only. -/
theorem methods_reordered {s : Settings} {es es' : List Endpoint} {ms : List Method}
    (h : List.Forall₂ Endpoint.Reordered es es')
    (hfits : ∀ e ∈ es, Validation.EndpointFits s e)
    (hms : List.Forall₂ (fun e m => Method.ofEndpoint e = .ok m) es ms) :
    ∃ ms', List.Forall₂ (fun e m => Method.ofEndpoint e = .ok m) es' ms' ∧
      ms'.map Method.bare = ms.map Method.bare := by
  induction h generalizing ms with
  | nil =>
    cases hms
    exact ⟨[], .nil, rfl⟩
  | cons he _ ih =>
    obtain ⟨m, ms, hm, hrest, rfl⟩ := List.forall₂_cons_left_iff.1 hms
    obtain ⟨ms', hms', hbare⟩ := ih (fun e he => hfits e (by simp [he])) hrest
    refine ⟨_, .cons (ofEndpoint_reordered he (hfits _ (by simp)).names hm) hms', ?_⟩
    have hend : m.endpoint = _ := ofEndpoint_endpoint hm
    obtain ⟨args, -, rfl⟩ := he
    simp only [List.map_cons, hbare, Method.bare, hend]

/-- Another order is accepted as well, and the methods are the same up to order. -/
theorem Accepted.reordered {c c' : Catalog} {s : Settings} {ms : List Method}
    (hacc : Accepted c s ms) (h : c.Reordered c') :
    ∃ ms', Accepted c' s ms' ∧ (ms.map Method.bare).Perm (ms'.map Method.bare) := by
  obtain ⟨es, hperm, hargs⟩ := h
  have hfits : ∀ e ∈ es, Validation.EndpointFits s e := fun e he =>
    hacc.fits e (hperm.mem_iff.2 he)
  obtain ⟨ms₁, hms₁, hperm₁⟩ := List.perm_comp_forall₂ hperm.symm (mapM_eq_ok_iff.1 hacc.methods)
  obtain ⟨ms', hms', hbare⟩ := methods_reordered hargs hfits hms₁
  have hall : (ms.map Method.bare).Perm (ms'.map Method.bare) := by
    rw [hbare]
    exact hperm₁.symm.map _
  -- what validation compares does not look at the arguments of an endpoint
  have hmap : ∀ {α : Type} (f : Method → α), (∀ m, f m.bare = f m) →
      (ms.map f).Perm (ms'.map f) := by
    intro α f hf
    have := hall.map f
    simpa only [List.map_map, Function.comp_def, hf] using this
  refine ⟨ms', ⟨mapM_eq_ok_iff.2 hms', ?_, ?_, ?_, ?_, ?_⟩, hall⟩
  · intro e' he'
    obtain ⟨e, he, hr⟩ := exists_of_forall₂_right hargs he'
    exact endpointFits_reordered hr (hfits e he)
  · rw [map_name_reordered hargs]
    exact (hperm.map _).nodup_iff.1 hacc.names
  · exact (hmap Method.callType fun _ => rfl).nodup_iff.1 hacc.callTypes
  · exact (hmap (fun m => (m.group, m.constructor)) fun _ => rfl).nodup_iff.1 hacc.constructors
  · intro m hm
    have hu : m.unit ∈ ms.map (·.unit) :=
      (hmap (·.unit) fun _ => rfl).mem_iff.2 (List.mem_map.2 ⟨m, hm, rfl⟩)
    obtain ⟨m₀, hm₀, hunit⟩ := List.mem_map.1 hu
    exact hunit ▸ hacc.units m₀ hm₀

/-! Emission -/

namespace Plan

/-- A plan without what is no longer looked at. -/
def bare (p : Plan) : Plan := ⟨p.groups, p.units.map fun u => (u.1, u.2.map Method.bare)⟩

theorem bare_ofMethods (ms : List Method) :
    (ofMethods ms).bare = ofMethods (ms.map Method.bare) :=
  (ofMethods_map (f := Method.bare) (fun _ => rfl) (fun _ => rfl) (fun _ => rfl) ms).symm

theorem render_bare (p : Plan) (t : Emission.Target) (s : Settings) :
    p.bare.render t s = p.render t s := by
  have hcall : ∀ m, Emission.call t (Method.bare m) = Emission.call t m := fun _ => rfl
  have hunit : ∀ ms : List Method, Emission.unit t (ms.map Method.bare) = Emission.unit t ms := by
    intro ms
    simp only [Emission.unit, List.mapM_map, Function.comp_def, hcall]
  simp only [render, bare, Emission.index, List.mapM_map, Function.comp_def, hunit]

end Plan

theorem generate_reordered_of_ok {c c' : Catalog} {s : Settings} {o : Output}
    (h : c.Reordered c') (ho : generate c s = .ok o) : generate c' s = .ok o := by
  obtain ⟨t, ms, ht, hacc, hrender⟩ := generate_eq_ok_iff.1 ho
  obtain ⟨ms', hacc', hperm⟩ := hacc.reordered h
  have hnames : ((ms.map Method.bare).map (·.endpoint.name)).Nodup := by
    rw [List.map_map]
    have := hacc.names
    rwa [← Validation.map_endpoint hacc.methods, List.map_map] at this
  refine generate_eq_ok_iff.2 ⟨t, ms', ht, hacc', ?_⟩
  rw [← Plan.render_bare, Plan.bare_ofMethods, ← Plan.ofMethods_eq_of_perm hperm hnames,
    ← Plan.bare_ofMethods, Plan.render_bare]
  exact hrender

/-- The order of a catalog, and of the arguments of its endpoints, leaves no trace in what is
generated: every file has the same path and the same contents, or nothing is generated at all. -/
theorem generate_reordered {c c' : Catalog} (h : c.Reordered c') (s : Settings) (o : Output) :
    generate c s = .ok o ↔ generate c' s = .ok o :=
  ⟨generate_reordered_of_ok h, generate_reordered_of_ok h.symm⟩

/-- A catalog backwards, each endpoint with its arguments backwards. -/
def Catalog.reversed (c : Catalog) : Catalog :=
  ⟨(c.endpoints.map fun e => { e with arguments := e.arguments.reverse }).reverse⟩

theorem Catalog.reordered_reversed (c : Catalog) : c.Reordered c.reversed := by
  refine ⟨c.endpoints.reverse, (List.reverse_perm _).symm, ?_⟩
  rw [reversed, ← List.map_reverse, List.forall₂_map_right_iff]
  exact List.forall₂_same.2 fun e _ => ⟨_, (List.reverse_perm _).symm, rfl⟩

theorem archive_reversed :
    ∃ o, generate .archive {} = .ok o ∧ generate Catalog.archive.reversed {} = .ok o := by
  obtain ⟨o, ho⟩ := exists_generate_archive
  exact ⟨o, ho, (generate_reordered Catalog.archive.reordered_reversed {} o).1 ho⟩

end Bindery
