import Bindery.Proofs.Emitted
import Bindery.Proofs.Ordering

/-!
# Names that code declares

What an item declares, and the service that a path leads to. The names that the items of one call
declare are the names that validation compares, escaped.
-/
namespace Bindery.Source

def segmentName : Tree (.one .segment) → Ident
  | .segment name _ => name

/-- The service that some words lead to from a unit. -/
def serviceOfWords? : List Ident → Option String
  | up :: file :: name :: _ =>
    if up.word = "super" ∧ file.word = "services" then some name.text else none
  | _ => none

/-- The service that a path leads to from a unit. -/
def serviceOf? : Path → Option String
  | .path false segments => serviceOfWords? (segments.toList.map segmentName)
  | .path true _ => none

/-- The struct that an item declares. -/
def structName? : Item → Option String
  | .structItem _ _ name _ _ _ => some name.text
  | _ => none

def fieldName? : Tree (.one .field) → Option String
  | .field _ _ name _ => name.map Ident.text

/-- The fields of a struct. -/
def fieldNames : Item → List String
  | .structItem _ _ _ _ (.namedFields elems _) _ => elems.toList.filterMap fieldName?
  | _ => []

/-- The function that an item declares. -/
def functionName? : Item → Option String
  | .fnItem _ _ (.signature _ name ..) _ => some name.text
  | _ => none

def parameterName? : Tree (.one .param) → Option String
  | .selfParam .. => some "self"
  | .param _ (.identPat _ _ name _) _ => some name.text
  | _ => none

/-- The parameters of a function, with the receiver. -/
def parameterNames : Item → List String
  | .fnItem _ _ (.signature _ _ _ inputs ..) _ => inputs.toList.filterMap parameterName?
  | _ => []

/-- What an implementation consists of. -/
def implemented : Item → List Item
  | .implItem _ _ _ _ _ _ _ _ (.members _ items) => items.toList
  | _ => []

/-- The functions of an implementation. -/
def functionNames (i : Item) : List String := (implemented i).filterMap functionName?

/-- The service that an implementation adds to. -/
def extended? : Item → Option String
  | .implItem _ _ _ _ _ _ (.pathType (.plainPlace p)) _ _ => serviceOf? p
  | _ => none

theorem serviceOf?_of_length_lt {rooted : Bool} {segments : Tree (.many .segment)}
    (h : segments.toList.length < 3) : serviceOf? (.path rooted segments) = none := by
  cases rooted with
  | true => rfl
  | false =>
    rw [serviceOf?]
    match hwords : segments.toList.map segmentName with
    | [] | [_] | [_, _] => rfl
    | _ :: _ :: _ :: _ =>
      have hlength := congrArg List.length hwords
      simp only [List.length_map, List.length_cons] at hlength
      omega

theorem serviceOf?_servicePath (name : Ident) :
    serviceOf? (Emission.servicePath name) = some name.text := rfl

@[simp] theorem fieldNames_structOf (attrs : List Attribute) (front : Front) (name : Ident)
    (generics : Tree (.maybe .params)) (elems : List (Tree (.one .field))) :
    fieldNames (structOf attrs front name generics elems) = elems.filterMap fieldName? :=
  congrArg (List.filterMap fieldName?) (Tree.toList_ofList elems)

@[simp] theorem parameterNames_publicFn (attrs : List Attribute) (flags : FnFlags) (name : Ident)
    (inputs : List (Tree (.one .param))) (output : Ty) (stmts : List Stmt) :
    parameterNames (publicFn attrs flags name inputs output stmts) =
      inputs.filterMap parameterName? :=
  congrArg (List.filterMap parameterName?) (Tree.toList_ofList inputs)

@[simp] theorem functionName?_publicFn (attrs : List Attribute) (flags : FnFlags) (name : Ident)
    (inputs : List (Tree (.one .param))) (output : Ty) (stmts : List Stmt) :
    functionName? (publicFn attrs flags name inputs output stmts) = some name.text := rfl

@[simp] theorem implemented_implOf (t : Ty) (items : List Item) :
    implemented (implOf t items) = items := Tree.toList_ofList items

end Bindery.Source

namespace Bindery

open Naming Source

/-! Names of arguments -/

namespace Naming

theorem nodup_map_escapeName {names : List String} (h : names.Nodup)
    (hall : ∀ n ∈ names, Unmarked n) : (names.map escapeName).Nodup :=
  List.Nodup.map_on (fun n hn n' hn' => escapeName_injective (hall n hn) (hall n' hn')) h

theorem escapeName_ne_self (n : String) : escapeName n ≠ "self" := by
  unfold escapeName
  intro h
  have hlist := congrArg String.toList h
  split at hlist
  · have hlast := congrArg List.getLast? hlist
    simp at hlast
  · rename_i hp
    split at hlist
    · simp at hlist
    · rw [String.toList_inj] at hlist
      subst hlist
      exact hp (by decide)

theorem set_ne_keyword (s : String) : "set_" ++ s ∉ pathKeywords ∧ "set_" ++ s ∉ rawKeywords := by
  have hstart : ∀ k ∈ pathKeywords ++ rawKeywords, ¬ "set_".toList <+: k.toList := by decide
  have hprefix : "set_".toList <+: ("set_" ++ s).toList := by simp
  exact ⟨fun h => hstart _ (List.mem_append_left _ h) hprefix,
    fun h => hstart _ (List.mem_append_right _ h) hprefix⟩

end Naming

namespace Emission

variable {s : Slot} {endpoint : String} {a : Argument}

theorem Slot.Holds.field_text (h : s.Holds endpoint a) : s.field.text = escapeName a.field :=
  (nameIdent_eq_ok h.field).1

theorem functionName?_setter (lines : List String) (name : Ident) (param : Tree (.one .param))
    (change : Expr) : functionName? (Slot.setter lines name param change) = some name.text := rfl

/-- The functions that set an argument have the names that validation compares. -/
theorem Slot.setters_names (h : s.Holds endpoint a) (hopt : a.required = false)
    {items : List Item} (hitems : s.setters = .ok items) :
    items.filterMap functionName? = a.setterNames.map escapeName := by
  have hargument := h.argument
  subst hargument
  rcases Slot.setters_cases hitems with ⟨element, replace, append, type, value, hlist⟩ | ⟨hno, rfl⟩
  · have hnames : s.argument.setterNames =
        ["set_" ++ snakeCase s.argument.name, snakeCase s.argument.appendName] := by
      simp [Argument.setterNames, hopt, h.isList.2 ⟨element, hlist.storage⟩]
    have hset := set_ne_keyword (snakeCase s.argument.name)
    rw [hlist.items_eq, hnames]
    simp only [List.filterMap_cons, functionName?_setter, List.filterMap_nil, List.map_cons,
      List.map_nil, spelledIdent_eq_ok hlist.replaceName, (nameIdent_eq_ok hlist.appendName).1,
      escapeName_eq_self hset.1 hset.2]
  · have hnames : s.argument.setterNames = [s.argument.field] := by
      have hother : ¬ s.argument.type.isList = true := fun hl => by
        obtain ⟨element, he⟩ := h.isList.1 hl
        exact hno element he
      simp [Argument.setterNames, Argument.field, hopt, hother]
    simp only [List.filterMap_cons, functionName?_setter, List.filterMap_nil, hnames, List.map_cons,
      List.map_nil, h.field_text]

theorem setterNames_of_required (h : a.required = true) : a.setterNames = [] := by
  rw [Argument.setterNames, if_pos h]

theorem unmarked_setterName (h : isIdentifier a.field = true) {n : String}
    (hn : n ∈ a.setterNames) (hid : isIdentifier n = true) : Unmarked n := by
  have hhash := hash_not_mem_of_isIdentifier hid
  unfold Argument.setterNames at hn
  split at hn
  · cases hn
  · split at hn
    · rcases List.mem_pair.1 hn with rfl | rfl
      · refine ⟨hhash, ?_⟩
        have hne : (snakeCase a.name).toList ≠ [] := by
          intro hnil
          rw [Argument.field, isIdentifier, hnil] at h
          cases h
        rw [String.toList_append, List.getLast?_append_of_ne_nil _ hne]
        exact getLast?_snakeCase_ne a.name
      · exact unmarked_snakeCase hhash
    · rw [List.mem_singleton] at hn
      subst hn
      exact unmarked_snakeCase hhash

/-- A setter takes the call and one value. -/
theorem Slot.setters_parameters (h : s.Holds endpoint a) {items : List Item}
    (hitems : s.setters = .ok items) :
    ∀ i ∈ items, ∃ n, parameterNames i = ["self", escapeName n] := by
  have hnames : ∀ (lines : List String) (name field : Ident) (type : Ty) (change : Expr),
      parameterNames (setter lines name (paramOf field type) change) = ["self", field.text] :=
    fun _ _ _ _ _ => rfl
  have hfield := h.field_text
  rcases Slot.setters_cases hitems with ⟨element, replace, append, type, value, hlist⟩ | ⟨-, rfl⟩
  · rw [hlist.items_eq]
    simp only [List.forall_mem_cons, List.not_mem_nil, false_imp_iff, implies_true, and_true]
    refine ⟨⟨a.field, ?_⟩, ⟨snakeCase s.argument.appendName, ?_⟩⟩
    · rw [hnames, hfield]
    · rw [hnames, (nameIdent_eq_ok hlist.appendName).1]
  · intro i hi
    rw [List.mem_singleton] at hi
    exact ⟨a.field, by rw [hi, Slot.param, hnames, hfield]⟩

theorem functionName?_formFn (t : Target) (m : Method) (slots : List Slot) :
    functionName? (formFn t m slots) = some "values" ∧
      parameterNames (formFn t m slots) = ["self"] := by
  unfold formFn
  dsimp only
  split <;> exact ⟨rfl, rfl⟩

theorem functionName?_postFn {t : Target} {e : Endpoint} {item : Item} (h : postFn t e = .ok item) :
    functionName? item = some "execute" ∧ parameterNames item = ["self", "ctx"] := by
  unfold postFn at h
  dsimp only at h
  split at h
  · cases pure_eq_ok_iff.1 h
    exact ⟨rfl, rfl⟩
  · obtain ⟨payload, -, h⟩ := bind_eq_ok_iff.1 h
    cases pure_eq_ok_iff.1 h
    exact ⟨rfl, rfl⟩

/-! Names of calls -/

namespace Parts

variable {t : Target} {p : Parts} (hfit : p.Fit t)

@[simp] theorem fieldName?_declaration (s : Slot) : fieldName? s.declaration = some s.field.text :=
  rfl

@[simp] theorem parameterName?_param (s : Slot) : parameterName? s.param = some s.field.text := rfl

include hfit

theorem fields_eq :
    p.slots.map (·.field.text) = p.method.arguments.map fun a => escapeName a.field :=
  map_eq_of_forall₂ hfit.slots fun _ _ _ hs => (Slot.holds hs).field_text

theorem arguments_eq : p.slots.map (·.argument) = p.method.arguments := by
  have hsame := map_eq_of_forall₂ hfit.slots (f := id) fun _ _ _ hs => (Slot.holds hs).argument
  rwa [List.map_id] at hsame

theorem holds_of_mem {s : Slot} (hs : s ∈ p.slots) :
    s.Holds p.method.endpoint.name s.argument := by
  obtain ⟨a, -, hof⟩ := exists_of_forall₂_right hfit.slots hs
  have hholds := Slot.holds hof
  rwa [hholds.argument]

theorem fieldNames_callItem :
    fieldNames p.callItem = "service" :: p.method.arguments.map fun a => escapeName a.field := by
  have hservice : ∀ t : Ty, fieldName? (fieldNamed [] .inherited (plain "service") t) =
      some "service" := fun _ => rfl
  rw [callItem, callStruct, fieldNames_structOf, List.filterMap_cons, hservice, List.filterMap_map,
    ← fields_eq hfit]
  simp [Function.comp_def]

/-- The setters of a call are those of its arguments. -/
theorem setters_names :
    p.setters.flatten.filterMap functionName? =
      (p.method.arguments.flatMap Argument.setterNames).map escapeName := by
  have hslot : p.setters.map (·.filterMap functionName?) =
      (p.slots.filter (!·.argument.required)).map fun s =>
        s.argument.setterNames.map escapeName := by
    refine map_eq_of_forall₂ hfit.setters fun s hs items hitems => ?_
    rw [List.mem_filter, Bool.not_eq_true'] at hs
    exact Slot.setters_names (holds_of_mem hfit hs.1) hs.2 hitems
  have hoptional : ∀ args : List Argument,
      (args.filter (!·.required)).flatMap Argument.setterNames =
        args.flatMap Argument.setterNames := by
    intro args
    induction args with
    | nil => rfl
    | cons a rest ih =>
      cases hreq : a.required with
      | true => simp [hreq, ih, setterNames_of_required hreq]
      | false => simp [hreq, ih]
  rw [List.filterMap_flatten, hslot, ← arguments_eq hfit, ← hoptional, List.filter_map,
    List.flatMap_map, List.map_flatMap]
  rfl

theorem functionNames_functionsItem :
    functionNames (p.functionsItem t) =
      (p.method.arguments.flatMap Argument.setterNames ++ Validation.callFunctions).map
        escapeName := by
  have hcall : Validation.callFunctions.map escapeName = ["values", "execute"] := by decide
  rw [functionNames, functionsItem, implemented_implOf, List.filterMap_append, setters_names hfit,
    List.map_append, hcall]
  simp [functionName?_formFn, functionName?_postFn hfit.post]

variable {settings : Settings} (hends : Validation.EndpointFits settings p.method.endpoint)
  (hperm : p.method.arguments.Perm p.method.endpoint.arguments)

include hends hperm

theorem fieldNames_nodup : (fieldNames p.callItem).Nodup := by
  have hservice : escapeName Validation.serviceField = "service" := by decide
  have hnames : fieldNames p.callItem =
      (Validation.serviceField :: p.method.arguments.map Argument.field).map escapeName := by
    rw [fieldNames_callItem hfit, List.map_cons, hservice, List.map_map, Function.comp_def]
  have hfits : ∀ a ∈ p.method.arguments, Validation.ArgumentFits settings p.method.endpoint a :=
    fun a ha => hends.arguments a (hperm.mem_iff.1 ha)
  rw [hnames]
  refine nodup_map_escapeName (List.nodup_cons.2 ⟨fun hmem => ?_, ?_⟩) fun n hn => ?_
  · obtain ⟨a, ha, hfield⟩ := List.mem_map.1 hmem
    exact (hfits a ha).notService hfield
  · exact (hperm.map _).nodup_iff.2 hends.fields
  · rcases List.mem_cons.1 hn with rfl | hn
    · exact ⟨by decide, by decide⟩
    · obtain ⟨a, ha, rfl⟩ := List.mem_map.1 hn
      exact unmarked_snakeCase (hash_not_mem_of_isIdentifier (hfits a ha).identifier)

theorem functionNames_nodup : (functionNames (p.functionsItem t)).Nodup := by
  have hfits : ∀ n ∈ p.method.arguments.flatMap Argument.setterNames,
      Validation.SetterFits n ∧ Unmarked n := by
    intro n hn
    obtain ⟨a, ha, hn⟩ := List.mem_flatMap.1 hn
    have hfits := hends.arguments a (hperm.mem_iff.1 ha)
    have hsetter := hfits.setters n hn
    exact ⟨hsetter, unmarked_setterName hfits.identifier hn hsetter.identifier⟩
  have hsetters : (p.method.arguments.flatMap Argument.setterNames).Nodup :=
    (hperm.flatMap_right _).nodup_iff.2 hends.setters
  rw [functionNames_functionsItem hfit]
  refine nodup_map_escapeName (List.nodup_append.2 ⟨hsetters, by decide, ?_⟩) fun n hn => ?_
  · rintro n hn _ hcall rfl
    exact (hfits n hn).1.free hcall
  · rcases List.mem_append.1 hn with hn | hn
    · exact (hfits n hn).2
    · have hcall : ∀ n ∈ Validation.callFunctions, Unmarked n := by
        intro n hn
        rcases List.mem_pair.1 hn with rfl | rfl <;> exact ⟨by decide, by decide⟩
      exact hcall n hn

theorem startFn_parameters_nodup :
    (parameterNames (startFn p.method p.name p.constructor p.slots)).Nodup := by
  have hfields := fieldNames_nodup hfit hends hperm
  rw [fieldNames_callItem hfit, List.nodup_cons] at hfields
  have hnames : parameterNames (startFn p.method p.name p.constructor p.slots) =
      "self" :: (p.slots.filter (·.argument.required)).map (·.field.text) := by
    rw [startFn, parameterNames_publicFn, List.filterMap_cons, List.filterMap_map]
    have hself : parameterName? selfRef = some "self" := rfl
    simp [Function.comp_def, hself]
  have hsub : ((p.slots.filter (·.argument.required)).map (·.field.text)).Sublist
      (p.method.arguments.map fun a => escapeName a.field) := by
    rw [← fields_eq hfit]
    exact List.filter_sublist.map _
  rw [hnames, List.nodup_cons]
  refine ⟨fun hself => ?_, hfields.2.sublist hsub⟩
  obtain ⟨a, -, hfield⟩ := List.mem_map.1 (hsub.subset hself)
  exact escapeName_ne_self _ hfield

/-- No function of a call has two parameters of one name. -/
theorem parameterNames_nodup :
    ∀ i ∈ p.items t, ∀ f ∈ implemented i, (parameterNames f).Nodup := by
  have hstart := startFn_parameters_nodup hfit hends hperm
  simp only [items, List.forall_mem_cons, List.not_mem_nil, false_imp_iff, implies_true, and_true]
  refine ⟨?_, ?_, ?_⟩
  · exact fun _ h => by cases h
  · simpa [serviceItem] using hstart
  · intro f hf
    rw [functionsItem, implemented_implOf] at hf
    simp only [List.mem_append, List.mem_cons, List.not_mem_nil, or_false] at hf
    rcases hf with hf | rfl | rfl
    · obtain ⟨items, hitems, hf⟩ := List.mem_flatten.1 hf
      obtain ⟨s, hs, hset⟩ := exists_of_forall₂_right hfit.setters hitems
      obtain ⟨n, hn⟩ :=
        Slot.setters_parameters (holds_of_mem hfit (List.mem_of_mem_filter hs)) hset f hf
      simpa [hn] using (escapeName_ne_self n).symm
    · simp [functionName?_formFn]
    · simp [functionName?_postFn hfit.post]

end Parts

end Emission

end Bindery
