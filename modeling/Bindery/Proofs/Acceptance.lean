import Bindery.Validation
import Bindery.Proofs.Steps

/-!
# What validation accepts

Validation goes through a catalog once and remembers the names it has met. What it accepts can be
said without an order: `validate_eq_ok_iff`.
-/
namespace Bindery

/-- The field that holds an argument. -/
def Argument.field (a : Argument) : String := Naming.snakeCase a.name

theorem ofEndpoint_endpoint {e : Endpoint} {m : Method} (h : Method.ofEndpoint e = .ok m) :
    m.endpoint = e := by
  unfold Method.ofEndpoint at h
  split at h
  · exact (congrArg Method.endpoint (Except.ok.inj h)).symm
  · simp at h

namespace Validation

theorem lookup_eq_none_iff {α : Type} [BEq α] [LawfulBEq α] {taken : Taken α} {name : α} :
    taken.lookup name = none ↔ name ∉ taken.map Prod.fst := by
  rw [List.lookup_eq_none_iff]
  constructor
  · intro h hmem
    obtain ⟨p, hp, rfl⟩ := List.mem_map.1 hmem
    simpa using h p hp
  · intro h p hp
    exact bne_iff_ne.2 fun e => h (List.mem_map.2 ⟨p, hp, e.symm⟩)

theorem take_eq_ok_iff {α : Type} [BEq α] [LawfulBEq α] {taken taken' : Taken α} {name : α}
    {shown entry : String} :
    take taken name shown entry = .ok taken' ↔
      name ∉ taken.map Prod.fst ∧ taken' = (name, entry) :: taken := by
  rw [← lookup_eq_none_iff]
  unfold take
  cases taken.lookup name with
  | some first => simp
  | none => simp [eq_comm]

/-- No name is taken twice. -/
def Distinct {α : Type} (taken : Taken α) : Prop := (taken.map Prod.fst).Nodup

theorem distinct_cons {α : Type} {taken : Taken α} {name : α} {entry : String} :
    Distinct ((name, entry) :: taken) ↔ name ∉ taken.map Prod.fst ∧ Distinct taken :=
  List.nodup_cons

/-! Setters -/

/-- A name that a setter may have. -/
structure SetterFits (name : String) : Prop where
  free : name ∉ callFunctions
  identifier : Naming.isIdentifier name = true

def addSetter (a : Argument) (taken : Taken String) (name : String) : Taken String :=
  (name, a.name) :: taken

theorem checkSetter_eq_ok_iff {e : Endpoint} {a : Argument} {taken taken' : Taken String}
    {name : String} (h : Distinct taken) :
    checkSetter e a taken name = .ok taken' ↔
      SetterFits name ∧ Distinct (addSetter a taken name) ∧
        taken' = addSetter a taken name := by
  unfold checkSetter
  simp only [check_eq_ok_iff, take_eq_ok_iff, addSetter, distinct_cons, h, and_true,
    List.contains_iff_mem, Bool.not_eq_true', Bool.not_eq_false]
  exact ⟨fun ⟨hf, hi, hno, e⟩ => ⟨⟨hf, hi⟩, hno, e⟩, fun ⟨⟨hf, hi⟩, hno, e⟩ => ⟨hf, hi, hno, e⟩⟩

theorem foldl_addSetter (a : Argument) (names : List String) (taken : Taken String) :
    names.foldl (addSetter a) taken = (names.map (·, a.name)).reverse ++ taken := by
  induction names generalizing taken with
  | nil => rfl
  | cons n rest ih => simp [ih, addSetter]

/-! Arguments -/

/-- What an argument must satisfy apart from all others. -/
structure ArgumentFits (s : Settings) (e : Endpoint) (a : Argument) : Prop where
  identifier : Naming.isIdentifier a.field = true
  notService : a.field ≠ serviceField
  notToken : e.skipToken = false → a.queryKey ≠ s.tokenKey
  setters : ∀ n ∈ a.setterNames, SetterFits n

namespace ArgumentNames

@[mk_iff clean_iff]
structure Clean (seen : ArgumentNames) : Prop where
  names : seen.names.Nodup
  fields : Distinct seen.fields
  setters : Distinct seen.setters

def add (seen : ArgumentNames) (a : Argument) : ArgumentNames :=
  ⟨a.name :: seen.names, (a.field, a.name) :: seen.fields,
    a.setterNames.foldl (addSetter a) seen.setters⟩

theorem clean_of_add {seen : ArgumentNames} {a : Argument} (h : (seen.add a).Clean) :
    seen.Clean := by
  obtain ⟨hn, hf, hs⟩ := h
  simp only [add, foldl_addSetter, Distinct, List.map_append] at hs
  exact ⟨(List.nodup_cons.1 hn).2, (List.nodup_cons.1 hf).2, hs.of_append_right⟩

/-- The names after some arguments. -/
theorem foldl_add (as : List Argument) (seen : ArgumentNames) :
    (as.foldl add seen).names = (as.map (·.name)).reverse ++ seen.names ∧
    (as.foldl add seen).fields.map Prod.fst =
      (as.map Argument.field).reverse ++ seen.fields.map Prod.fst ∧
    (as.foldl add seen).setters.map Prod.fst =
      (as.flatMap Argument.setterNames).reverse ++ seen.setters.map Prod.fst := by
  induction as generalizing seen with
  | nil => simp
  | cons a rest ih =>
    obtain ⟨hn, hf, hs⟩ := ih (seen.add a)
    simp only [List.foldl_cons, hn, hf, hs]
    refine ⟨?_, ?_, ?_⟩
    · simp [add]
    · simp [add]
    · simp [add, foldl_addSetter, Function.comp_def]

end ArgumentNames

theorem checkArgument_eq_ok_iff {s : Settings} {e : Endpoint} {a : Argument}
    {seen seen' : ArgumentNames} (h : seen.Clean) :
    checkArgument s e seen a = .ok seen' ↔
      ArgumentFits s e a ∧ (seen.add a).Clean ∧ seen' = seen.add a := by
  have hsetters : ∀ taken', a.setterNames.foldlM (checkSetter e a) seen.setters = .ok taken' ↔
      (∀ n ∈ a.setterNames, SetterFits n) ∧
        Distinct (a.setterNames.foldl (addSetter a) seen.setters) ∧
        taken' = a.setterNames.foldl (addSetter a) seen.setters := fun taken' =>
    foldlM_eq_ok_iff (by exact fun _ _ _ ht => checkSetter_eq_ok_iff ht)
      (by exact fun _ _ ht => (distinct_cons.1 ht).2) h.setters
  unfold checkArgument
  simp only [check_eq_ok_iff, bind_eq_ok_iff, pure_eq_ok_iff, take_eq_ok_iff, hsetters,
    List.contains_iff_mem, Bool.not_eq_true', Bool.not_eq_false, Bool.and_eq_true, beq_iff_eq]
  constructor
  · rintro ⟨hname, hid, hservice, htoken, _, ⟨hfield, rfl⟩, _, ⟨hfit, hnodup, rfl⟩, rfl⟩
    refine ⟨⟨hid, hservice, fun hskip hkey => htoken ⟨hskip, hkey⟩, hfit⟩, ?_, rfl⟩
    exact ⟨List.nodup_cons.2 ⟨hname, h.names⟩, List.nodup_cons.2 ⟨hfield, h.fields⟩, hnodup⟩
  · rintro ⟨hfits, hclean, rfl⟩
    refine ⟨(List.nodup_cons.1 hclean.names).1, hfits.identifier, hfits.notService,
      fun ht => hfits.notToken ht.1 ht.2, _, ⟨(List.nodup_cons.1 hclean.fields).1, rfl⟩, _,
      ⟨hfits.setters, hclean.setters, rfl⟩, rfl⟩

theorem checkArguments_eq_ok_iff {s : Settings} {e : Endpoint} :
    checkArguments s e = .ok () ↔
      (∀ a ∈ e.arguments, ArgumentFits s e a) ∧ (e.arguments.map (·.name)).Nodup ∧
        (e.arguments.map Argument.field).Nodup ∧
        (e.arguments.flatMap Argument.setterNames).Nodup := by
  have hstart : ArgumentNames.Clean {} := ⟨List.nodup_nil, List.nodup_nil, List.nodup_nil⟩
  obtain ⟨hn, hf, hs⟩ := ArgumentNames.foldl_add e.arguments {}
  simp only [List.map_nil, List.append_nil] at hn hf hs
  have hclean : (e.arguments.foldl ArgumentNames.add {}).Clean ↔
      (e.arguments.map (·.name)).Nodup ∧ (e.arguments.map Argument.field).Nodup ∧
        (e.arguments.flatMap Argument.setterNames).Nodup := by
    rw [ArgumentNames.clean_iff, Distinct, Distinct, hn, hf, hs]
    simp only [List.nodup_reverse]
  have hloop : ∀ seen, e.arguments.foldlM (checkArgument s e) {} = .ok seen ↔
      (∀ a ∈ e.arguments, ArgumentFits s e a) ∧
        (e.arguments.foldl ArgumentNames.add {}).Clean ∧
        seen = e.arguments.foldl ArgumentNames.add {} := fun _ =>
    foldlM_eq_ok_iff (by exact fun _ _ _ hseen => checkArgument_eq_ok_iff hseen)
      (by exact fun _ _ hseen => ArgumentNames.clean_of_add hseen) hstart
  unfold checkArguments
  rw [discard_eq_ok_iff, ← hclean]
  simp only [hloop]
  exact ⟨fun ⟨_, hfits, hgood, _⟩ => ⟨hfits, hgood⟩, fun ⟨hfits, hgood⟩ => ⟨_, hfits, hgood, rfl⟩⟩

theorem checkTypes_eq_ok_iff {e : Endpoint} :
    checkTypes e = .ok () ↔ ∀ type ∈ typeTexts e, ∃ t, readType e.name type = .ok t := by
  unfold checkTypes
  simp only [forM_eq_ok_iff, discard_eq_ok_iff]

/-! Endpoints -/

/-- What an endpoint must satisfy apart from all others. -/
structure EndpointFits (s : Settings) (e : Endpoint) : Prop where
  method : ∃ m, methodOf e = .ok m
  arguments : ∀ a ∈ e.arguments, ArgumentFits s e a
  names : (e.arguments.map (·.name)).Nodup
  fields : (e.arguments.map Argument.field).Nodup
  setters : (e.arguments.flatMap Argument.setterNames).Nodup
  types : ∀ type ∈ typeTexts e, ∃ t, readType e.name type = .ok t

/-- The checks on a method accept or refuse it; they do not change it. -/
theorem methodOf_eq_ok {e : Endpoint} {m : Method} (h : methodOf e = .ok m) :
    Method.ofEndpoint e = .ok m := by
  unfold methodOf at h
  obtain ⟨m', hm, h⟩ := bind_eq_ok_iff.1 h
  dsimp only at h
  split at h
  · rw [pure_eq_ok_iff] at h
    exact h ▸ hm
  · exact absurd h throw_ne_ok

/-- The methods of the endpoints belong to them in order. -/
theorem map_endpoint {es : List Endpoint} {ms : List Method}
    (h : es.mapM Method.ofEndpoint = .ok ms) : ms.map (·.endpoint) = es := by
  have hsame := map_eq_of_forall₂ (mapM_eq_ok_iff.1 h) (f := id) fun _ _ _ hm =>
    ofEndpoint_endpoint hm
  rwa [List.map_id] at hsame

theorem exists_methods {s : Settings} {es : List Endpoint} (h : ∀ e ∈ es, EndpointFits s e) :
    ∃ ms, es.mapM Method.ofEndpoint = .ok ms := by
  simp only [mapM_eq_ok_iff]
  induction es with
  | nil => exact ⟨[], .nil⟩
  | cons e rest ih =>
    obtain ⟨m, hm⟩ := (h e (by simp)).method
    obtain ⟨ms, hms⟩ := ih fun e' he' => h e' (by simp [he'])
    exact ⟨m :: ms, .cons (methodOf_eq_ok hm) hms⟩

namespace EndpointNames

@[mk_iff clean_iff]
structure Clean (seen : EndpointNames) : Prop where
  names : seen.names.Nodup
  callTypes : Distinct seen.callTypes
  constructors : Distinct seen.constructors

def addMethod (seen : EndpointNames) (m : Method) : EndpointNames :=
  let entry := m.endpoint.name
  ⟨entry :: seen.names, (m.callType, entry) :: seen.callTypes,
    ((m.group, m.constructor), entry) :: seen.constructors, seen.units ++ [(m.unit, entry)]⟩

def add (seen : EndpointNames) (e : Endpoint) : EndpointNames :=
  match Method.ofEndpoint e with
  | .ok m => seen.addMethod m
  | .error _ => seen

theorem clean_of_add {seen : EndpointNames} {e : Endpoint} (h : (seen.add e).Clean) :
    seen.Clean := by
  unfold add at h
  split at h
  · obtain ⟨hn, ht, hc⟩ := h
    exact ⟨(List.nodup_cons.1 hn).2, (List.nodup_cons.1 ht).2, (List.nodup_cons.1 hc).2⟩
  · exact h

theorem foldl_add {es : List Endpoint} {ms : List Method}
    (h : es.mapM Method.ofEndpoint = .ok ms) (seen : EndpointNames) :
    es.foldl add seen = ms.foldl addMethod seen := by
  rw [mapM_eq_ok_iff] at h
  induction h generalizing seen with
  | nil => rfl
  | cons he _ ih => simp only [List.foldl_cons, add, he, ih]

/-- The names after some methods. -/
theorem foldl_addMethod (ms : List Method) (seen : EndpointNames) :
    (ms.foldl addMethod seen).names = (ms.map (·.endpoint.name)).reverse ++ seen.names ∧
    (ms.foldl addMethod seen).callTypes.map Prod.fst =
      (ms.map Method.callType).reverse ++ seen.callTypes.map Prod.fst ∧
    (ms.foldl addMethod seen).constructors.map Prod.fst =
      (ms.map fun m => (m.group, m.constructor)).reverse ++ seen.constructors.map Prod.fst ∧
    (ms.foldl addMethod seen).units.map Prod.fst =
      seen.units.map Prod.fst ++ ms.map (·.unit) := by
  induction ms generalizing seen with
  | nil => simp
  | cons m rest ih =>
    obtain ⟨hn, ht, hc, hu⟩ := ih (seen.addMethod m)
    simp only [List.foldl_cons, hn, ht, hc, hu]
    simp [addMethod]

end EndpointNames

theorem checkEndpoint_eq_ok_iff {s : Settings} {e : Endpoint} {seen seen' : EndpointNames}
    (h : seen.Clean) :
    checkEndpoint s seen e = .ok seen' ↔
      EndpointFits s e ∧ (seen.add e).Clean ∧ seen' = seen.add e := by
  unfold checkEndpoint
  simp only [check_eq_ok_iff, bind_eq_ok_iff, pure_eq_ok_iff, take_eq_ok_iff,
    exists_unit_iff, checkArguments_eq_ok_iff, checkTypes_eq_ok_iff, List.contains_iff_mem]
  constructor
  · rintro ⟨hname, m, hm, ⟨hargs, hnames, hfields, hsetters⟩, htypes, _, ⟨hcall, rfl⟩, _,
      ⟨hnew, rfl⟩, rfl⟩
    have hadd : seen.add e = seen.addMethod m := by
      simp only [EndpointNames.add, methodOf_eq_ok hm]
    have he : m.endpoint = e := ofEndpoint_endpoint (methodOf_eq_ok hm)
    rw [hadd]
    subst he
    refine ⟨⟨⟨m, hm⟩, hargs, hnames, hfields, hsetters, htypes⟩, ⟨?_, ?_, ?_⟩, rfl⟩
    · exact List.nodup_cons.2 ⟨hname, h.names⟩
    · exact List.nodup_cons.2 ⟨hcall, h.callTypes⟩
    · exact List.nodup_cons.2 ⟨hnew, h.constructors⟩
  · rintro ⟨hfits, hclean, rfl⟩
    obtain ⟨m, hm⟩ := hfits.method
    have hadd : seen.add e = seen.addMethod m := by
      simp only [EndpointNames.add, methodOf_eq_ok hm]
    have he : m.endpoint = e := ofEndpoint_endpoint (methodOf_eq_ok hm)
    rw [hadd] at hclean ⊢
    subst he
    exact ⟨(List.nodup_cons.1 hclean.names).1, m, hm,
      ⟨hfits.arguments, hfits.names, hfits.fields, hfits.setters⟩, hfits.types, _,
      ⟨(List.nodup_cons.1 hclean.callTypes).1, rfl⟩, _,
      ⟨(List.nodup_cons.1 hclean.constructors).1, rfl⟩, rfl⟩

theorem checkUnits_eq_ok_iff {units : Taken String} :
    checkUnits units = .ok () ↔ ∀ unit ∈ units.map Prod.fst, unit ∉ reservedUnits := by
  unfold checkUnits
  rw [forM_eq_ok_iff]
  constructor
  · intro h unit hu hr
    have hfree := h unit hr
    split at hfree
    · exact absurd hfree throw_ne_ok
    · rename_i hnone
      exact lookup_eq_none_iff.1 hnone hu
  · intro h unit hr
    have hnone : units.lookup unit = none := lookup_eq_none_iff.2 fun hu => h unit hu hr
    rw [hnone]
    rfl

end Validation

/-- The methods of a catalog that validation accepts. -/
structure Accepted (c : Catalog) (s : Settings) (ms : List Method) : Prop where
  methods : c.endpoints.mapM Method.ofEndpoint = .ok ms
  fits : ∀ e ∈ c.endpoints, Validation.EndpointFits s e
  names : (c.endpoints.map (·.name)).Nodup
  callTypes : (ms.map Method.callType).Nodup
  constructors : (ms.map fun m => (m.group, m.constructor)).Nodup
  units : ∀ m ∈ ms, m.unit ∉ Validation.reservedUnits

open Validation in
theorem validate_eq_ok_iff {c : Catalog} {s : Settings} :
    validate c s = .ok () ↔ ∃ ms, Accepted c s ms := by
  have hstart : EndpointNames.Clean {} := ⟨List.nodup_nil, List.nodup_nil, List.nodup_nil⟩
  have hloop : ∀ seen, c.endpoints.foldlM (checkEndpoint s) {} = .ok seen ↔
      (∀ e ∈ c.endpoints, EndpointFits s e) ∧
        (c.endpoints.foldl EndpointNames.add {}).Clean ∧
        seen = c.endpoints.foldl EndpointNames.add {} := fun _ =>
    foldlM_eq_ok_iff (by exact fun _ _ _ hseen => checkEndpoint_eq_ok_iff hseen)
      (by exact fun _ _ hseen => EndpointNames.clean_of_add hseen) hstart
  unfold validate
  simp only [bind_eq_ok_iff, hloop, checkUnits_eq_ok_iff]
  constructor
  · rintro ⟨_, ⟨hfits, hclean, rfl⟩, hunits⟩
    obtain ⟨ms, hms⟩ := exists_methods hfits
    rw [EndpointNames.foldl_add hms] at hclean hunits
    obtain ⟨hn, ht, hc, hu⟩ := EndpointNames.foldl_addMethod ms {}
    simp only [List.map_nil, List.append_nil, List.nil_append] at hn ht hc hu
    rw [EndpointNames.clean_iff, Distinct, Distinct, hn, ht, hc] at hclean
    simp only [List.nodup_reverse] at hclean
    rw [hu] at hunits
    refine ⟨ms, hms, hfits, ?_, hclean.2.1, hclean.2.2, fun m hm => ?_⟩
    · rw [← map_endpoint hms, List.map_map]
      exact hclean.1
    · exact hunits m.unit (List.mem_map.2 ⟨m, hm, rfl⟩)
  · rintro ⟨ms, h⟩
    obtain ⟨hn, ht, hc, hu⟩ := EndpointNames.foldl_addMethod ms {}
    simp only [List.map_nil, List.append_nil, List.nil_append] at hn ht hc hu
    refine ⟨_, ⟨h.fits, ?_, rfl⟩, ?_⟩
    · rw [EndpointNames.foldl_add h.methods, EndpointNames.clean_iff, Distinct, Distinct, hn, ht,
        hc]
      simp only [List.nodup_reverse]
      refine ⟨?_, h.callTypes, h.constructors⟩
      have := h.names
      rwa [← map_endpoint h.methods, List.map_map] at this
    · rw [EndpointNames.foldl_add h.methods, hu]
      rintro unit hunit
      obtain ⟨m, hm, rfl⟩ := List.mem_map.1 hunit
      exact h.units m hm

end Bindery
