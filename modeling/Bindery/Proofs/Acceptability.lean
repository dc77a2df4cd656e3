import Bindery.Proofs.Acceptance
import Bindery.Proofs.Splitting

/-!
# Acceptable catalogs

A catalog is acceptable if its entries have the names and types that code needs and no two of them
lead to one name. Nothing in this depends on the order in which a catalog lists its entries, and
what is left of an acceptable catalog is acceptable. Validation accepts the acceptable catalogs.
-/
namespace Bindery

namespace Endpoint

/-- What stands before the last dot of the name. -/
def space (e : Endpoint) : String := e.namespace?.getD ""

/-- What stands behind the last dot of the name. -/
def procedure (e : Endpoint) : String := e.method?.getD ""

/-- The group that is given, or else the one of the namespace. -/
def groupName (e : Endpoint) : String :=
  if e.group = "" then Naming.pascalCase e.space else e.group

def callName (e : Endpoint) : String := e.groupName ++ Naming.pascalCase e.procedure ++ "Call"

/-- The function that starts a call, in the service it belongs to. -/
def starter (e : Endpoint) : String × String :=
  (e.groupName, Naming.snakeCase (Naming.pascalCase e.procedure))

/-- The method of an endpoint whose name has two parts. -/
def method (e : Endpoint) : Method :=
  ⟨e, e.groupName, Naming.pascalCase e.procedure, unitOf e.space, sortArguments e.arguments⟩

/-- The name consists of words between dots. All but the last one hold something. -/
def IsDotted (e : Endpoint) : Prop :=
  ∃ words : List (List Char), words ≠ [] ∧ (∀ w ∈ words, w ≠ [] ∧ '.' ∉ w) ∧
    e.space.toList = ['.'].intercalate words ∧ '.' ∉ e.procedure.toList ∧
    e.name = e.space ++ "." ++ e.procedure

/-- An endpoint that code can be emitted for. -/
structure Acceptable (s : Settings) (e : Endpoint) : Prop where
  dotted : e.IsDotted
  group : Naming.isIdentifier e.groupName = true
  procedure : Naming.isIdentifier (Naming.pascalCase e.procedure) = true
  unit : Naming.isIdentifier (unitOf e.space) = true
  arguments : (e.arguments.map (·.name)).Nodup
  fields : (e.arguments.map Argument.field).Nodup
  field : ∀ a ∈ e.arguments, Naming.isIdentifier a.field = true ∧ a.field ≠ "service"
  key : e.skipToken = false → ∀ a ∈ e.arguments, a.queryKey ≠ s.tokenKey
  setters : (e.arguments.flatMap Argument.setterNames).Nodup
  setter : ∀ n ∈ e.arguments.flatMap Argument.setterNames,
    Naming.isIdentifier n = true ∧ n ≠ "values" ∧ n ≠ "execute"
  types : ∀ a ∈ e.arguments, ∀ type, a.type = .list type ∨ a.type = .object type →
    ∃ t, Source.Ty.read type = .ok t
  payload : e.returnType ≠ "" → ∃ t, Source.Ty.read e.returnType = .ok t

end Endpoint

/-- A catalog that code can be emitted for. -/
structure Catalog.Acceptable (s : Settings) (c : Catalog) : Prop where
  endpoints : ∀ e ∈ c.endpoints, e.Acceptable s
  names : (c.endpoints.map (·.name)).Nodup
  calls : (c.endpoints.map Endpoint.callName).Nodup
  starters : (c.endpoints.map Endpoint.starter).Nodup
  units : ∀ e ∈ c.endpoints, unitOf e.space ≠ "services" ∧ unitOf e.space ≠ "mod"

/-! Names of endpoints -/

section

variable {e : Endpoint}

theorem name_eq_of_namespace {ns : String} (h : e.namespace? = some ns) :
    e.name = e.space ++ "." ++ e.procedure ∧ '.' ∉ e.procedure.toList := by
  obtain ⟨⟨front, back⟩, hsplit, rfl⟩ := Option.map_eq_some_iff.1 h
  have hspace : e.space = String.ofList front := by simp [Endpoint.space, h]
  have hprocedure : e.procedure = String.ofList back := by
    simp [Endpoint.procedure, Endpoint.method?, hsplit]
  obtain ⟨hname, hback⟩ := splitLast?_eq_some_iff.1 hsplit
  refine ⟨?_, by rwa [hprocedure, String.toList_ofList]⟩
  apply String.toList_inj.1
  simp [hspace, hprocedure, hname]

theorem ofEndpoint_of_namespace {ns : String} (h : e.namespace? = some ns) :
    Method.ofEndpoint e = .ok e.method := by
  obtain ⟨p, hsplit, -⟩ := Option.map_eq_some_iff.1 h
  have hmethod : e.method? = some e.procedure := by
    simp [Endpoint.procedure, Endpoint.method?, hsplit]
  have hspace : e.space = ns := by simp [Endpoint.space, h]
  simp only [Method.ofEndpoint, h, hmethod, Endpoint.unit?, Option.map_some, Endpoint.method,
    Endpoint.groupName, hspace]

theorem namespace_of_dotted (h : e.IsDotted) : e.namespace? = some e.space := by
  obtain ⟨words, -, -, -, hprocedure, hname⟩ := h
  have hsplit : splitLast? '.' e.name.toList = some (e.space.toList, e.procedure.toList) := by
    refine splitLast?_eq_some_iff.2 ⟨?_, hprocedure⟩
    rw [hname]
    simp
  simp [Endpoint.namespace?, hsplit]

theorem exists_namespace {m : Method} (h : Method.ofEndpoint e = .ok m) :
    ∃ ns, e.namespace? = some ns := by
  cases hns : e.namespace? with
  | none => simp [Method.ofEndpoint, hns] at h
  | some ns => exact ⟨ns, rfl⟩

/-- The names in a method are those of its endpoint. -/
theorem names_of_ofEndpoint {m : Method} (h : Method.ofEndpoint e = .ok m) :
    m.callType = e.callName ∧ (m.group, m.constructor) = e.starter ∧ m.unit = unitOf e.space := by
  obtain ⟨ns, hns⟩ := exists_namespace h
  rw [ofEndpoint_of_namespace hns, Except.ok.injEq] at h
  subst h
  exact ⟨rfl, rfl, rfl⟩

theorem words_iff {ns : String} :
    (Text.splitBy (· == '.') ns.toList).all (!·.isEmpty) = true ↔
      ∃ words : List (List Char), words ≠ [] ∧ (∀ w ∈ words, w ≠ [] ∧ '.' ∉ w) ∧
        ns.toList = ['.'].intercalate words := by
  constructor
  · intro h
    refine ⟨_, Text.splitBy_ne_nil _, fun w hw => ⟨?_, Text.not_mem_of_mem_splitBy hw⟩,
      (Text.intercalate_splitBy '.' _).symm⟩
    simpa using List.all_eq_true.1 h w hw
  · rintro ⟨words, hne, hwords, hns⟩
    rw [hns, Text.splitBy_intercalate hne fun w hw => (hwords w hw).2]
    refine List.all_eq_true.2 fun w hw => ?_
    simpa using (hwords w hw).1

theorem exists_methodOf_iff :
    (∃ m, Validation.methodOf e = .ok m) ↔ e.IsDotted ∧
      Naming.isIdentifier e.groupName = true ∧
      Naming.isIdentifier (Naming.pascalCase e.procedure) = true ∧
      Naming.isIdentifier (unitOf e.space) = true := by
  unfold Validation.methodOf
  constructor
  · rintro ⟨m, h⟩
    obtain ⟨m', hof, h⟩ := bind_eq_ok_iff.1 h
    obtain ⟨ns, hns⟩ := exists_namespace hof
    have hspace : e.namespace?.getD "" = e.space := rfl
    obtain ⟨hname, hprocedure⟩ := name_eq_of_namespace hns
    rw [ofEndpoint_of_namespace hns, Except.ok.injEq] at hof
    subst hof
    dsimp only at h
    split at h
    · rename_i hok
      simp only [Bool.and_eq_true] at hok
      obtain ⟨⟨⟨hparts, hgroup⟩, hproc⟩, hunit⟩ := hok
      obtain ⟨words, hne, hwords, hjoin⟩ := words_iff.1 hparts
      exact ⟨⟨words, hne, hwords, hjoin, hprocedure, hname⟩, hgroup, hproc, hunit⟩
    · exact absurd h throw_ne_ok
  · rintro ⟨hdotted, hgroup, hproc, hunit⟩
    have hns := namespace_of_dotted hdotted
    obtain ⟨words, hne, hwords, hspace, -, -⟩ := hdotted
    have hparts := words_iff.2 ⟨words, hne, hwords, hspace⟩
    refine ⟨e.method, bind_eq_ok_iff.2 ⟨e.method, ofEndpoint_of_namespace hns, ?_⟩⟩
    have hok : (((Text.splitBy (· == '.') e.space.toList).all fun x => !x.isEmpty) &&
        Naming.isIdentifier e.method.group && Naming.isIdentifier e.method.name &&
        Naming.isIdentifier e.method.unit) = true := by
      simp only [Bool.and_eq_true]
      exact ⟨⟨⟨hparts, hgroup⟩, hproc⟩, hunit⟩
    dsimp only
    rw [hns, Option.getD_some, if_pos hok]
    rfl

/-! Arguments and types -/

theorem mem_typeTexts_iff {type : String} :
    type ∈ Validation.typeTexts e ↔
      (∃ a ∈ e.arguments, a.type = .list type ∨ a.type = .object type) ∨
        e.returnType ≠ "" ∧ type = e.returnType := by
  unfold Validation.typeTexts
  rw [List.mem_append, List.mem_filterMap]
  refine or_congr ⟨?_, ?_⟩ ?_
  · rintro ⟨a, ha, htype⟩
    refine ⟨a, ha, ?_⟩
    split at htype
    · exact .inl (by simp_all)
    · exact .inr (by simp_all)
    · cases htype
  · rintro ⟨a, ha, htype | htype⟩
    · exact ⟨a, ha, by simp [htype]⟩
    · exact ⟨a, ha, by simp [htype]⟩
  · by_cases h : e.returnType = ""
    · simp [Endpoint.hasReturn, h]
    · simp [Endpoint.hasReturn, h]

theorem exists_readType_iff {endpoint type : String} :
    (∃ t, readType endpoint type = .ok t) ↔ ∃ t, Source.Ty.read type = .ok t := by
  unfold readType
  cases Source.Ty.read type with
  | ok t => simp
  | error why => simp

theorem endpointFits_iff {s : Settings} : Validation.EndpointFits s e ↔ e.Acceptable s := by
  constructor
  · rintro ⟨hmethod, hargs, hnames, hfields, hsetters, htypes⟩
    obtain ⟨hdotted, hgroup, hproc, hunit⟩ := exists_methodOf_iff.1 hmethod
    refine ⟨hdotted, hgroup, hproc, hunit, hnames, hfields, fun a ha => ?_, fun hskip a ha => ?_,
      hsetters, fun n hn => ?_, fun a ha type htype => ?_, fun hret => ?_⟩
    · exact ⟨(hargs a ha).identifier, (hargs a ha).notService⟩
    · exact (hargs a ha).notToken hskip
    · obtain ⟨a, ha, hn⟩ := List.mem_flatMap.1 hn
      obtain ⟨hfree, hid⟩ := (hargs a ha).setters n hn
      simp only [Validation.callFunctions, List.mem_cons, List.not_mem_nil, or_false,
        not_or] at hfree
      exact ⟨hid, hfree⟩
    · exact exists_readType_iff.1 (htypes type (mem_typeTexts_iff.2 (.inl ⟨a, ha, htype⟩)))
    · exact exists_readType_iff.1 (htypes _ (mem_typeTexts_iff.2 (.inr ⟨hret, rfl⟩)))
  · intro h
    refine ⟨exists_methodOf_iff.2 ⟨h.dotted, h.group, h.procedure, h.unit⟩, fun a ha => ?_,
      h.arguments, h.fields, h.setters, fun type htype => exists_readType_iff.2 ?_⟩
    · refine ⟨(h.field a ha).1, (h.field a ha).2, fun hskip => h.key hskip a ha, fun n hn => ?_⟩
      obtain ⟨hid, hvalues, hexecute⟩ := h.setter n (List.mem_flatMap.2 ⟨a, ha, hn⟩)
      exact ⟨by simp [Validation.callFunctions, hvalues, hexecute], hid⟩
    · rcases mem_typeTexts_iff.1 htype with ⟨a, ha, hof⟩ | ⟨hret, rfl⟩
      · exact h.types a ha type hof
      · exact h.payload hret

end

/-! Catalogs -/

theorem exists_accepted_iff {c : Catalog} {s : Settings} :
    (∃ ms, Accepted c s ms) ↔ c.Acceptable s := by
  -- methods and endpoints lead to the same names
  have hsame : ∀ {ms}, c.endpoints.mapM Method.ofEndpoint = .ok ms →
      ms.map Method.callType = c.endpoints.map Endpoint.callName ∧
      ms.map (fun m => (m.group, m.constructor)) = c.endpoints.map Endpoint.starter ∧
      ms.map (·.unit) = c.endpoints.map fun e => unitOf e.space := by
    intro ms hms
    have hall := mapM_eq_ok_iff.1 hms
    exact ⟨map_eq_of_forall₂ hall fun _ _ _ h => (names_of_ofEndpoint h).1,
      map_eq_of_forall₂ hall fun _ _ _ h => (names_of_ofEndpoint h).2.1,
      map_eq_of_forall₂ hall fun _ _ _ h => (names_of_ofEndpoint h).2.2⟩
  have hreserved : ∀ unit : String,
      unit ∉ Validation.reservedUnits ↔ unit ≠ "services" ∧ unit ≠ "mod" := by
    intro unit
    simp [Validation.reservedUnits, and_comm]
  constructor
  · rintro ⟨ms, h⟩
    obtain ⟨hcalls, hstarters, hunits⟩ := hsame h.methods
    refine ⟨fun e he => endpointFits_iff.1 (h.fits e he), h.names, hcalls ▸ h.callTypes,
      hstarters ▸ h.constructors, fun e he => (hreserved _).1 ?_⟩
    have hmem : unitOf e.space ∈ ms.map (·.unit) := hunits ▸ List.mem_map_of_mem he
    obtain ⟨m, hm, hunit⟩ := List.mem_map.1 hmem
    exact hunit ▸ h.units m hm
  · intro h
    have hfits : ∀ e ∈ c.endpoints, Validation.EndpointFits s e := fun e he =>
      endpointFits_iff.2 (h.endpoints e he)
    obtain ⟨ms, hms⟩ := Validation.exists_methods hfits
    obtain ⟨hcalls, hstarters, hunits⟩ := hsame hms
    refine ⟨ms, hms, hfits, h.names, hcalls ▸ h.calls, hstarters ▸ h.starters, fun m hm => ?_⟩
    have hmem : m.unit ∈ c.endpoints.map fun e => unitOf e.space :=
      hunits ▸ List.mem_map_of_mem hm
    obtain ⟨e, he, hunit⟩ := List.mem_map.1 hmem
    exact hunit ▸ (hreserved _).2 (h.units e he)

/-! Parts of catalogs -/

/-- The endpoint with some of its arguments, in any order. -/
def Endpoint.Part (e e' : Endpoint) : Prop :=
  ∃ args, args.Subperm e.arguments ∧ e' = { e with arguments := args }

/-- Some of the endpoints, in any order, each with some of its arguments. -/
def Catalog.Part (c c' : Catalog) : Prop :=
  ∃ es, es.Subperm c.endpoints ∧ List.Forall₂ Endpoint.Part es c'.endpoints

theorem nodup_map_of_subperm {α β : Type} {f : α → β} {xs ys : List α} (h : xs.Subperm ys)
    (hn : (ys.map f).Nodup) : (xs.map f).Nodup := by
  obtain ⟨zs, hperm, hsub⟩ := h
  exact (hperm.map f).nodup_iff.1 ((hsub.map f).nodup hn)

theorem Endpoint.Acceptable.part {s : Settings} {e e' : Endpoint} (h : e.Acceptable s)
    (hpart : e.Part e') : e'.Acceptable s := by
  obtain ⟨args, hargs, rfl⟩ := hpart
  have hmem : ∀ {a}, a ∈ args → a ∈ e.arguments := fun ha => hargs.subset ha
  have hsetters : (args.flatMap Argument.setterNames).Nodup := by
    obtain ⟨as, hperm, hsub⟩ := hargs
    exact (hperm.flatMap_right _).nodup_iff.1 ((hsub.flatMap _).nodup h.setters)
  have hsetter : ∀ n ∈ args.flatMap Argument.setterNames,
      n ∈ e.arguments.flatMap Argument.setterNames := by
    intro n hn
    obtain ⟨a, ha, hn⟩ := List.mem_flatMap.1 hn
    exact List.mem_flatMap.2 ⟨a, hmem ha, hn⟩
  exact ⟨h.dotted, h.group, h.procedure, h.unit, nodup_map_of_subperm hargs h.arguments,
    nodup_map_of_subperm hargs h.fields, fun a ha => h.field a (hmem ha),
    fun hskip a ha => h.key hskip a (hmem ha), hsetters, fun n hn => h.setter n (hsetter n hn),
    fun a ha => h.types a (hmem ha), h.payload⟩

theorem Catalog.Acceptable.part {s : Settings} {c c' : Catalog} (h : c.Acceptable s)
    (hpart : c.Part c') : c'.Acceptable s := by
  obtain ⟨es, hes, hparts⟩ := hpart
  -- an endpoint without some of its arguments has the same names
  have hmap : ∀ {α : Type} {f : Endpoint → α},
      (∀ e args, f { e with arguments := args } = f e) → (c.endpoints.map f).Nodup →
      (c'.endpoints.map f).Nodup := by
    intro α f hf hnodup
    have hsame : c'.endpoints.map f = es.map f := map_eq_of_forall₂ hparts
      fun e _ e' ⟨args, _, he⟩ => by rw [he, hf]
    exact hsame ▸ nodup_map_of_subperm hes hnodup
  refine ⟨fun e' he' => ?_, hmap (fun _ _ => rfl) h.names, hmap (fun _ _ => rfl) h.calls,
    hmap (fun _ _ => rfl) h.starters, fun e' he' => ?_⟩
  · obtain ⟨e, he, hpart⟩ := exists_of_forall₂_right hparts he'
    exact (h.endpoints e (hes.subset he)).part hpart
  · obtain ⟨e, he, -, -, rfl⟩ := exists_of_forall₂_right hparts he'
    exact h.units e (hes.subset he)

/-- Validation accepts the acceptable catalogs, and with a catalog every part of it. -/
theorem validate_iff_acceptable (c : Catalog) (s : Settings) :
    (validate c s = .ok () ↔ c.Acceptable s) ∧
      ∀ c', c.Part c' → validate c s = .ok () → validate c' s = .ok () := by
  have hiff : ∀ c : Catalog, validate c s = .ok () ↔ c.Acceptable s := fun c =>
    validate_eq_ok_iff.trans exists_accepted_iff
  exact ⟨hiff c, fun c' hpart h => (hiff c').2 (((hiff c).1 h).part hpart)⟩

/-- A catalog with a required argument, a list and a payload. -/
def Catalog.mail : Catalog := ⟨[
  { name := "mail.drop" },
  { name := "mail.send"
    returnType := "Letter"
    arguments := [
      { name := "to", type := .text, required := true },
      { name := "tags", type := .list "String" }] }]⟩

theorem validate_mail_tail :
    validate .mail {} = .ok () ∧ validate ⟨Catalog.mail.endpoints.tail⟩ {} = .ok () := by
  have hpart : Catalog.Part .mail ⟨Catalog.mail.endpoints.tail⟩ :=
    ⟨Catalog.mail.endpoints.tail, (List.tail_sublist _).subperm,
      List.forall₂_same.2 fun e _ => ⟨_, List.Subperm.refl _, rfl⟩⟩
  have hmail : validate .mail {} = .ok () := eq_ok_of_toOption (by decide +kernel)
  exact ⟨hmail, (validate_iff_acceptable .mail {}).2 _ hpart hmail⟩

end Bindery
