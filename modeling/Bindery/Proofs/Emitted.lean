import Bindery.Emission.Unit
import Bindery.Proofs.Mentions
import Bindery.Proofs.Names

/-!
# Paths in emitted code

Whatever emitted code mentions is short, or lies in the runtime, or is a service, or comes with the
types that the catalog names.
-/
namespace Bindery.Emission

open Source

/-- The names that units take from the runtime. -/
def runtimeNames : List String := ["Values", "Encode", "Context", "ResponseEnvelope", "MethodError"]

@[simp] theorem mem_runtimeNames {w : String} :
    w ∈ runtimeNames ↔ w = "Values" ∨ w = "Encode" ∨ w = "Context" ∨ w = "ResponseEnvelope" ∨
      w = "MethodError" := by
  simp [runtimeNames]

/-- A condition on paths that all paths of emitted code satisfy, apart from those in the types that
the catalog names. -/
structure Lenient (t : Target) (P : Path → Prop) : Prop where
  short : ∀ rooted (segments : Tree (.many .segment)), segments.toList.length < 3 →
    P (.path rooted segments)
  runtime : ∀ name ∈ runtimeNames, ∀ words, (within t.runtime (name :: words)).All P

namespace Lenient

variable {t : Target} {P : Path → Prop} (h : Lenient t P)
include h

theorem segments (segments : List (Tree (.one .segment))) (hlen : segments.length < 3)
    (hall : ∀ x ∈ segments, x.All P) : (Tree.path false (Tree.ofList segments)).All P := by
  rw [Tree.All.path, Tree.All.ofList]
  refine ⟨h.short _ _ ?_, hall⟩
  rwa [Tree.toList_ofList]

theorem nameType (name : Ident) : (nameType name).All P :=
  h.segments [segmentOf name] (by simp) (by simp)

theorem wordType (w : String) : (wordType w).All P := h.nameType _

theorem genericType (w : String) {args : List Ty} (hargs : ∀ a ∈ args, a.All P) :
    (genericType w args).All P := h.segments [segmentWith (plain w) args] (by simp) (by simpa)

theorem borrowingType (name lifetime : Ident) : (borrowingType name lifetime).All P :=
  h.segments [_] (by simp) (by simp)

theorem intoString : intoString.All P := by
  have hpaths : Source.intoString.paths = (Tree.path false
      (Tree.ofList [segmentWith (plain "Into") [Source.wordType "String"]])).paths := rfl
  unfold Tree.All
  rw [hpaths]
  exact h.segments [_] (by simp) (by simp [h.wordType])

theorem wordPath {words : List String} (hlen : words.length < 3) : (wordPath words).All P :=
  h.segments _ (by simpa) (by simp)

theorem nameExpr (name : Ident) : (nameExpr name).All P :=
  h.segments [segmentOf name] (by simp) (by simp)

theorem wordExpr (w : String) : (wordExpr w).All P := h.nameExpr _

theorem selfField (name : Ident) : (selfField name).All P := h.wordExpr "self"

theorem targetType {w : String} (hw : w ∈ runtimeNames) : (t.type w).All P := h.runtime w hw []

theorem targetExpr {w : String} (hw : w ∈ runtimeNames) (words : List String) :
    (t.expr (w :: words)).All P := h.runtime w hw words

end Lenient

/-! Arguments -/

/-- The types that the catalog names for an argument. -/
def Slot.types (s : Slot) : List Ty :=
  match s.storage with
  | .list element => [element]
  | .object type => [type]
  | _ => []

/-- The functions that set an argument that holds a list. -/
structure Slot.ListSetters (s : Slot) (items : List Item) (element : Ty) (replace append : Ident)
    (type : Ty) (value : Expr) : Prop where
  storage : s.storage = .list element
  replaceName : spelledIdent ("set_" ++ Naming.snakeCase s.argument.name) = .ok replace
  appendName : catalogIdent s.argument.appendName = .ok append
  appended : type = intoString ∧ value = methodOf (nameExpr append) "into" [] ∨
    type = element ∧ value = nameExpr append
  items_eq : items = [
    setter (setterDocs s.argument) replace (paramOf s.field s.fieldType)
      (.assignExpr (selfField s.field) (nameExpr s.field)),
    setter [s!" Appends one element to `{s.argument.queryKey}`."] append (paramOf append type)
      (methodOf (selfField s.field) "push" [value])]

theorem Slot.setters_cases {s : Slot} {items : List Item} (h : s.setters = .ok items) :
    (∃ element replace append type value,
      s.ListSetters items element replace append type value) ∨
    (∀ element, s.storage ≠ .list element) ∧
      items = [setter (setterDocs s.argument) s.field s.param
        (.assignExpr (selfField s.field) s.stored)] := by
  unfold setters at h
  dsimp only at h
  split at h
  · rename_i element hstorage
    obtain ⟨replace, hreplace, h⟩ := bind_eq_ok_iff.1 h
    obtain ⟨append, happend, h⟩ := bind_eq_ok_iff.1 h
    refine .inl ⟨element, replace, append, _, _, hstorage, hreplace, happend, ?_,
      (pure_eq_ok_iff.1 h).symm⟩
    split
    · exact .inl ⟨rfl, rfl⟩
    · exact .inr ⟨rfl, rfl⟩
  · rename_i hstorage
    exact .inr ⟨hstorage, (pure_eq_ok_iff.1 h).symm⟩

section Slots

variable {t : Target} {P : Path → Prop} (h : Lenient t P) {s : Slot}
  (htypes : ∀ type ∈ s.types, type.All P)
include h

include htypes in
theorem Slot.fieldType_all : s.fieldType.All P := by
  unfold fieldType
  unfold types at htypes
  split <;> simp_all [h.wordType, h.genericType]

theorem Slot.unset_all : s.unset.All P := by
  unfold unset
  split <;> simp [h.wordPath, h.wordExpr]

include htypes in
theorem Slot.inputType_all : s.inputType.All P := by
  have hfield := s.fieldType_all h htypes
  unfold inputType
  unfold types at htypes
  split <;> simp_all [h.intoString]

theorem Slot.stored_all : s.stored.All P := by
  unfold stored
  split <;> simp [h.nameExpr, h.wordExpr]

include htypes in
theorem Slot.param_all : s.param.All P := s.inputType_all h htypes

theorem Slot.initial_all : s.initial.All P := by
  unfold initial given
  split
  · split <;> simp [s.stored_all h]
  · simp [s.unset_all h]

include htypes in
theorem Slot.declaration_all : s.declaration.All P := by
  rw [declaration, Tree.All.fieldNamed]
  exact ⟨Tree.All.docs _, s.fieldType_all h htypes⟩

theorem Slot.setter_all (lines : List String) (name : Ident) {param : Tree (.one .param)}
    {change : Expr} (hparam : param.All P) (hchange : change.All P) :
    (setter lines name param change).All P := by
  simp [setter, hparam, hchange, h.wordType, h.wordExpr]

include htypes in
theorem Slot.setters_all {items : List Item} (hitems : s.setters = .ok items) :
    ∀ i ∈ items, i.All P := by
  have hfield := s.fieldType_all h htypes
  have hinput := s.inputType_all h htypes
  rcases Slot.setters_cases hitems with ⟨element, replace, append, type, value, hlist⟩ | ⟨-, rfl⟩
  · unfold types at htypes
    rw [hlist.storage] at htypes
    have happended : type.All P ∧ value.All P := by
      rcases hlist.appended with ⟨rfl, rfl⟩ | ⟨rfl, rfl⟩
      · exact ⟨h.intoString, by simp [h.nameExpr]⟩
      · exact ⟨htypes _ (by simp), h.nameExpr _⟩
    rw [hlist.items_eq]
    simp only [List.forall_mem_cons, List.not_mem_nil, false_imp_iff, implies_true, and_true]
    refine ⟨setter_all h _ _ ?_ ?_, setter_all h _ _ ?_ ?_⟩
    · simpa using hfield
    · simp [h.selfField, h.nameExpr]
    · simpa using happended.1
    · simpa [h.selfField] using happended.2
  · simpa using setter_all h _ _ hinput (by simp [h.selfField, s.stored_all h])

theorem Slot.isUnset_all : s.isUnset.All P := by
  unfold isUnset
  dsimp only
  split <;> simp [h.selfField]

theorem Slot.isSet_all : s.isSet.All P := by
  have hunset := s.isUnset_all h
  unfold isSet
  dsimp only
  split <;> simp [h.selfField, hunset]

theorem orFail_all {e value : Expr} (he : e.All P) (hvalue : value.All P) (error : String)
    (about : Ident) : (orFail t e error about value).All P := by
  simp [orFail, he, hvalue, h.runtime]

theorem failWith_all (error : String) {args : List Expr} (hargs : ∀ e ∈ args, e.All P) :
    (failWith t error args).All P := by
  simpa [failWith, h.wordExpr, h.targetExpr] using hargs

theorem Slot.sent_all : (s.sent t).All P := by
  have hencoded : ∀ e : Expr, e.All P → (orFail t (callOf (t.expr ["Encode", "encode"]) [e])
      "Encode" (plain "field") (textExpr s.argument.name)).All P := by
    intro e he
    exact orFail_all h (by simp [h.targetExpr, he]) (by simp) _ _
  unfold sent
  dsimp only
  split
  · simp [h.selfField]
  · simp
  · simp [h.selfField]
  · exact hencoded _ (by simp [h.selfField])
  · exact hencoded _ (h.wordExpr _)

theorem Slot.send_all : ∀ x ∈ s.send t, x.All P := by
  have hput : (doStmt (methodOf (wordExpr "values") "set"
      [textExpr s.argument.queryKey, s.sent t])).All P := by
    simp [h.wordExpr, s.sent_all h]
  have hmissing : (failWith t "MissingParameter" [textExpr s.argument.name]).All P :=
    failWith_all h _ (by simp)
  have hunset := s.isUnset_all h
  have hset := s.isSet_all h
  unfold send
  dsimp only
  split <;> simp [hput, hmissing, hunset, hset, h.selfField, h.wordPath]

end Slots

/-- What a slot keeps of its argument. -/
structure Slot.Holds (s : Slot) (endpoint : String) (a : Argument) : Prop where
  argument : s.argument = a
  field : catalogIdent a.name = .ok s.field
  types : ∀ type ∈ s.types, ∃ text, readType endpoint text = .ok type ∧
    (a.type = .list text ∨ a.type = .object text)
  isList : a.type.isList = true ↔ ∃ element, s.storage = .list element

theorem Slot.holds {endpoint : String} {a : Argument} {s : Slot} (h : Slot.of endpoint a = .ok s) :
    s.Holds endpoint a := by
  unfold Slot.of at h
  cases htype : a.type with
  | list element =>
    simp only [htype, bind_eq_ok_iff, pure_eq_ok_iff] at h
    obtain ⟨type, hread, _, rfl, field, hfield, rfl⟩ := h
    refine ⟨rfl, hfield, fun type' htype' => ?_, ?_⟩
    · rw [types, List.mem_singleton] at htype'
      exact ⟨element, htype' ▸ hread, .inl htype⟩
    · simp [htype, ArgType.isList]
  | object text =>
    simp only [htype, bind_eq_ok_iff, pure_eq_ok_iff] at h
    obtain ⟨type, hread, _, rfl, field, hfield, rfl⟩ := h
    refine ⟨rfl, hfield, fun type' htype' => ?_, ?_⟩
    · rw [types, List.mem_singleton] at htype'
      exact ⟨text, htype' ▸ hread, .inr htype⟩
    · simp [htype, ArgType.isList]
  | _ =>
    simp only [htype, bind_eq_ok_iff, pure_eq_ok_iff] at h
    obtain ⟨_, rfl, field, hfield, rfl⟩ := h
    refine ⟨rfl, hfield, fun type' htype' => ?_, ?_⟩
    · rw [types] at htype'
      cases htype'
    · simp [htype, ArgType.isList]

section Functions

variable {t : Target} {P : Path → Prop} (h : Lenient t P)
include h

theorem formFn_all (m : Method) (slots : List Slot) : (formFn t m slots).All P := by
  have hresult : (genericType "Result" [t.type "Values", t.type "MethodError"]).All P :=
    h.genericType _ (by simp [h.targetType])
  have hsend : ∀ x ∈ slots.flatMap (Slot.send t), x.All P := by
    intro x hx
    obtain ⟨s, -, hx⟩ := List.mem_flatMap.1 hx
    exact s.send_all h x hx
  unfold formFn
  dsimp only
  split
  · simp [hresult, h.wordExpr, h.targetExpr]
  · rw [Tree.All.publicFn]
    refine ⟨by simp, hresult, fun x hx => ?_⟩
    simp only [List.mem_append, List.mem_singleton] at hx
    rcases hx with ((rfl | hx) | hx) | rfl
    · simp [h.targetExpr]
    · split at hx
      · cases hx
      · rw [List.mem_singleton] at hx
        subst hx
        simp [h.wordExpr, h.selfField]
    · exact hsend x hx
    · simp [h.wordExpr]

theorem responseStruct_all (e : Endpoint) {payload : Ty} (hpayload : payload.All P) :
    (responseStruct t e payload).All P := by
  have hoption : (genericType "Option" [payload]).All P := h.genericType "Option" (by simpa)
  unfold responseStruct decodeAttribute
  dsimp only
  split <;> simp [hoption, h.targetType]

theorem postStmts_all (e : Endpoint) (result : String) {response : Ty}
    (hresponse : response.All P) : ∀ x ∈ postStmts t e result response, x.All P := by
  have hword := h.wordExpr
  simp [postStmts, hword, hresponse, h.wordType, h.selfField, orFail_all h]

theorem checkStmt_all {envelope : Expr} (henvelope : envelope.All P) :
    (checkStmt t envelope).All P := by
  simp [checkStmt, henvelope, failWith_all h]

theorem postFn_all {e : Endpoint} {item : Item}
    (htypes : ∀ text ∈ Validation.typeTexts e, ∀ type, readType e.name text = .ok type →
      type.All P) (hitem : postFn t e = .ok item) : item.All P := by
  have hfn : ∀ payload stmts, payload.All P → (∀ x ∈ stmts, x.All P) → ∀ lines,
      (publicFn (docs lines) { async := true } (plain "execute")
        [selfRef, paramOf (plain "ctx") (referenceTo (t.type "Context"))]
        (genericType "Result" [payload, t.type "MethodError"]) stmts).All P := by
    intro payload stmts hpayload hstmts lines
    rw [Tree.All.publicFn]
    exact ⟨by simp [h.targetType],
      h.genericType _ (by simp [hpayload, h.targetType]), hstmts⟩
  unfold postFn at hitem
  dsimp only at hitem
  split at hitem
  · cases pure_eq_ok_iff.1 hitem
    refine hfn _ _ (by simp) (fun x hx => ?_) _
    rcases List.mem_append.1 hx with hx | hx
    · exact postStmts_all h e _ (h.targetType (by simp)) x hx
    · simp only [List.mem_cons, List.not_mem_nil, or_false] at hx
      rcases hx with rfl | rfl
      · exact checkStmt_all h (h.wordExpr _)
      · simp [h.wordExpr]
  · rename_i hreturn
    obtain ⟨payload, hread, hitem⟩ := bind_eq_ok_iff.1 hitem
    have hpayload : payload.All P := by
      refine htypes e.returnType ?_ payload hread
      rw [Validation.typeTexts, if_pos (by simpa using hreturn)]
      simp
    cases pure_eq_ok_iff.1 hitem
    refine hfn _ _ hpayload (fun x hx => ?_) _
    simp only [List.mem_append, List.mem_cons, List.not_mem_nil, or_false] at hx
    rcases hx with (rfl | hx) | rfl | rfl
    · simpa using responseStruct_all h e hpayload
    · exact postStmts_all h e _ (h.wordType _) x hx
    · exact checkStmt_all h (by simp [h.wordExpr])
    · simp [h.wordExpr, h.runtime]

end Functions

/-! Calls -/

/-- What the items of a call are made of. -/
structure Parts where
  method : Method
  slots : List Slot
  name : Ident
  serviceName : Ident
  constructor : Ident
  post : Item
  setters : List (List Item)

namespace Parts

def callItem (p : Parts) : Item := callStruct p.method p.name p.serviceName p.slots

def serviceItem (p : Parts) : Item :=
  implOf (pathType (servicePath p.serviceName))
    [startFn p.method p.name p.constructor p.slots]

def functionsItem (t : Target) (p : Parts) : Item :=
  implOf (borrowingType p.name (plain "_"))
    (p.setters.flatten ++ [formFn t p.method p.slots, p.post])

def items (t : Target) (p : Parts) : List Item := [p.callItem, p.serviceItem, p.functionsItem t]

/-- The parts fit the method. -/
structure Fit (t : Target) (p : Parts) : Prop where
  slots : List.Forall₂ (fun a s => Slot.of p.method.endpoint.name a = .ok s) p.method.arguments
    p.slots
  name : spelledIdent p.method.callType = .ok p.name
  serviceName : spelledIdent p.method.serviceType = .ok p.serviceName
  constructor : nameIdent p.method.constructor = .ok p.constructor
  post : postFn t p.method.endpoint = .ok p.post
  setters : List.Forall₂ (fun s items => Slot.setters s = .ok items)
    (p.slots.filter (!·.argument.required)) p.setters

end Parts

theorem exists_parts {t : Target} {m : Method} {items : List Item} (h : call t m = .ok items) :
    ∃ p : Parts, p.method = m ∧ p.Fit t ∧ items = p.items t := by
  simp only [call, bind_eq_ok_iff, pure_eq_ok_iff] at h
  obtain ⟨slots, hslots, name, hname, serviceName, hservice, constructor, hconstructor, post, hpost,
    setters, hsetters, rfl⟩ := h
  exact ⟨⟨m, slots, name, serviceName, constructor, post, setters⟩, rfl,
    ⟨mapM_eq_ok_iff.1 hslots, hname, hservice, hconstructor, hpost, mapM_eq_ok_iff.1 hsetters⟩, rfl⟩

theorem servicePath_all {P : Path → Prop} {name : Ident} (h : P (servicePath name)) :
    (servicePath name).All P := by
  have hsegments : servicePath name = .path false (Tree.ofList
      [segmentOf (plain "super"), segmentOf (plain "services"), segmentOf name]) := rfl
  rw [hsegments] at h ⊢
  simp [h]

theorem mem_typeTexts {e : Endpoint} {a : Argument} (ha : a ∈ e.arguments) {text : String}
    (h : a.type = .list text ∨ a.type = .object text) : text ∈ Validation.typeTexts e := by
  refine List.mem_append_left _ (List.mem_filterMap.2 ⟨a, ha, ?_⟩)
  rcases h with h | h <;> rw [h]

section Items

variable {t : Target} {P : Path → Prop} (h : Lenient t P) {p : Parts} (hfit : p.Fit t)
  (harguments : ∀ a ∈ p.method.arguments, a ∈ p.method.endpoint.arguments)
  (htypes : ∀ text ∈ Validation.typeTexts p.method.endpoint, ∀ type,
    readType p.method.endpoint.name text = .ok type → type.All P)

include hfit harguments htypes in
theorem slot_types_all : ∀ s ∈ p.slots, ∀ type ∈ s.types, type.All P := by
  intro s hs type htype
  obtain ⟨a, ha, hof⟩ := exists_of_forall₂_right hfit.slots hs
  obtain ⟨text, hread, hkind⟩ := (Slot.holds hof).types type htype
  exact htypes text (mem_typeTexts (harguments a ha) hkind) type hread

include h hfit harguments htypes in
/-- All paths of a call, if its service does and the types that the catalog names. -/
theorem items_all (hservice : P (servicePath p.serviceName)) : ∀ i ∈ p.items t, i.All P := by
  have hslots := slot_types_all hfit harguments htypes
  have hpath := servicePath_all hservice
  have hderived : derived.All P := Tree.All.listAttribute _ _
  have hsetters : ∀ i ∈ p.setters.flatten, i.All P := by
    intro i hi
    obtain ⟨items, hitems, hi⟩ := List.mem_flatten.1 hi
    obtain ⟨s, hs, hset⟩ := exists_of_forall₂_right hfit.setters hitems
    exact s.setters_all h (hslots s (List.mem_of_mem_filter hs)) hset i hi
  simp only [Parts.items, List.forall_mem_cons, List.not_mem_nil, false_imp_iff, implies_true,
    and_true]
  refine ⟨?_, ?_, ?_⟩
  · rw [Parts.callItem, callStruct, Tree.All.structOf]
    refine ⟨fun a ha => ?_, by simp, fun x hx => ?_⟩
    · rcases List.mem_append.1 ha with ha | ha
      · exact Tree.All.docs _ a ha
      · rw [List.mem_singleton] at ha
        exact ha ▸ hderived
    · rcases List.mem_cons.1 hx with rfl | hx
      · simpa using hpath
      · obtain ⟨s, hs, rfl⟩ := List.mem_map.1 hx
        exact s.declaration_all h (hslots s hs)
  · rw [Parts.serviceItem, Tree.All.implOf]
    refine ⟨by simpa using hpath, fun x hx => ?_⟩
    rw [List.mem_singleton] at hx
    subst hx
    have hparams : ∀ x ∈ (p.slots.filter (·.argument.required)).map Slot.param, x.All P := by
      intro x hx
      obtain ⟨s, hs, rfl⟩ := List.mem_map.1 hx
      exact s.param_all h (hslots s (List.mem_of_mem_filter hs))
    have hinitial : ∀ x ∈ p.slots.map Slot.initial, x.All P := by
      intro x hx
      obtain ⟨s, hs, rfl⟩ := List.mem_map.1 hx
      exact s.initial_all h
    have hname := h.nameType p.name
    rw [startFn, Tree.All.publicFn]
    refine ⟨List.forall_mem_cons.2 ⟨by simp, hparams⟩, h.borrowingType _ _, ?_⟩
    simp only [List.mem_singleton, forall_eq, Tree.All.valueStmt, Tree.All.structExpr,
      Tree.All.plainPlace, Tree.All.ofList, Tree.All.absent, and_true]
    exact ⟨hname, List.forall_mem_cons.2 ⟨by simp [h.wordExpr], hinitial⟩⟩
  · rw [Parts.functionsItem, Tree.All.implOf]
    refine ⟨h.borrowingType _ _, fun x hx => ?_⟩
    simp only [List.mem_append, List.mem_cons, List.not_mem_nil, or_false] at hx
    rcases hx with hx | rfl | rfl
    · exact hsetters x hx
    · exact formFn_all h _ _
    · exact postFn_all h htypes hfit.post

end Items

end Bindery.Emission
