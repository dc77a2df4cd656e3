import Bindery.Proofs.Rereading.Unit
import Bindery.Proofs.Source.Gapless

/-!
# Emitted code has a layout

Emitted items consist of forms that are laid out without gaps, and of plain types.
-/
namespace Bindery.Emission

open Source

section Code

variable {t : Target} (ht : t.Named) {e value : Expr} {args : List Expr}

include ht in
theorem gapless_expr (words : List String) : Gapless (t.expr words) :=
  gapless_pathExpr (gapless_within ht words)

include ht in
theorem gapless_failWith (error : String) (hargs : ∀ a ∈ args, Gapless a) :
    Gapless (failWith t error args) := by
  have hcall : Gapless (callOf (t.expr ["MethodError", error]) args) :=
    gapless_call (gapless_expr ht _) hargs
  exact gapless_exprStmt (gapless_return (by simp [hcall])) true

include ht in
theorem gapless_orFail (he : Gapless e) (error : String) (about : Ident) (hvalue : Gapless value) :
    Gapless (orFail t e error about value) := by
  have hfields : ∀ x ∈ [setField about value, sameField (plain "source")], Gapless x := by
    simp [hvalue]
  have hstruct := gapless_struct (gapless_within ht ["MethodError", error]) hfields
  exact gapless_try (gapless_method he (List.forall_mem_singleton.2 (gapless_closure hstruct)))

/-- A value is put into the form. -/
theorem gapless_put (key : String) (hvalue : Gapless value) :
    Gapless (doStmt (methodOf (wordExpr "values") "set" [textExpr key, value])) :=
  gapless_exprStmt (gapless_method (by simp) (by simp [hvalue])) true

end Code

namespace Slot

variable {t : Target} (ht : t.Named) {s : Slot} {n : Nat}

theorem gapless_isUnset (s : Slot) : Gapless s.isUnset := by
  unfold isUnset
  dsimp only
  split <;> simp

theorem gapless_isSet (s : Slot) : Gapless s.isSet := by
  unfold isSet
  dsimp only
  split <;> simp [gapless_isUnset]

theorem gapless_unset (s : Slot) : Gapless s.unset := by
  unfold unset
  split <;> simp

theorem gapless_stored (s : Slot) : Gapless s.stored := by
  unfold stored
  split <;> simp

theorem gapless_initial (s : Slot) : Gapless s.initial := by
  unfold initial given
  split
  · split <;> simp [gapless_stored]
  · simp [gapless_unset]

theorem gapless_param (h : s.Ready n) : Gapless s.param :=
  gapless_paramOf (plain_inputType h (Nat.le_refl n)).plain

theorem gapless_declaration (h : s.Ready n) : Gapless s.declaration :=
  gapless_fieldNamed (gapless_docs _) (plain_fieldType h (Nat.le_refl n)).plain

/-- The function that a setter is. -/
theorem gapless_setter (lines : List String) (name : Ident) {param : Tree (.one .param)}
    (hparam : Gapless param) {change : Expr} (hchange : Gapless change) :
    Gapless (setter lines name param change) :=
  gapless_publicFn (gapless_docs _) (by simp [hparam]) rfl (by simp [doStmt, valueStmt, hchange])

theorem gapless_setters (h : s.Ready n) {items : List Item} (hitems : s.setters = .ok items) :
    ∀ i ∈ items, Gapless i := by
  rcases Slot.setters_cases hitems with ⟨element, replace, append, type, value, hlist⟩ | ⟨-, rfl⟩
  · have helement := (h.types element (by rw [types, hlist.storage]; simp) n (Nat.le_refl n)).plain
    have happended : type.isPlain = true ∧ Gapless value := by
      rcases hlist.appended with ⟨rfl, rfl⟩ | ⟨rfl, rfl⟩
      · exact ⟨rfl, by simp⟩
      · exact ⟨helement, by simp⟩
    rw [hlist.items_eq]
    refine List.forall_mem_cons.2 ⟨?_, List.forall_mem_singleton.2 ?_⟩
    · exact gapless_setter _ _ (gapless_paramOf (plain_fieldType h (Nat.le_refl n)).plain) (by simp)
    · exact gapless_setter _ _ (gapless_paramOf happended.1) (by simp [happended.2])
  · exact List.forall_mem_singleton.2
      (gapless_setter _ _ (gapless_param h) (gapless_assign gapless_selfField s.gapless_stored))

/-! The form -/

include ht

theorem gapless_sent (s : Slot) : Gapless (s.sent t) := by
  have hencoded : ∀ e, Gapless e → Gapless (orFail t (callOf (t.expr ["Encode", "encode"]) [e])
      "Encode" (plain "field") (textExpr s.argument.name)) := fun e he =>
    gapless_orFail ht
      (gapless_call (gapless_expr ht _) (List.forall_mem_singleton.2 he)) _ _ (by simp)
  unfold sent
  dsimp only
  split
  · simp
  · simp
  · simp
  · exact hencoded _ (by simp)
  · exact hencoded _ (by simp)

theorem gapless_send (s : Slot) : ∀ x ∈ s.send t, Gapless x := by
  have hput := gapless_put s.argument.queryKey (s.gapless_sent ht)
  have hmissing : ∀ x ∈ [failWith t "MissingParameter" [textExpr s.argument.name]], Gapless x :=
    List.forall_mem_singleton.2 (gapless_failWith ht _ (by simp))
  unfold send
  dsimp only
  split
  · exact List.forall_mem_cons.2 ⟨gapless_letElse (gapless_somePat (plain "value")) (by simp)
      hmissing, List.forall_mem_singleton.2 hput⟩
  · exact List.forall_mem_singleton.2 (gapless_ifStmt (gapless_let (gapless_somePat (plain "value"))
      (by simp)) (List.forall_mem_singleton.2 hput))
  · exact List.forall_mem_cons.2 ⟨gapless_ifStmt s.gapless_isUnset hmissing,
      List.forall_mem_singleton.2 hput⟩
  · exact List.forall_mem_singleton.2 (gapless_ifStmt s.gapless_isSet
      (List.forall_mem_singleton.2 hput))

end Slot

/-! Functions -/

section Functions

variable {t : Target} (ht : t.Named) {n : Nat}

include ht

theorem gapless_formFn (m : Method) (slots : List Slot) : Gapless (formFn t m slots) := by
  have hnew : Gapless (callOf (t.expr ["Values", "new"]) []) :=
    gapless_call (gapless_expr ht _) (by simp)
  have hok : ∀ e, Gapless e → Gapless (valueStmt (callOf (wordExpr "Ok") [e])) := fun e he =>
    gapless_exprStmt (gapless_call (by simp) (List.forall_mem_singleton.2 he)) false
  have htoken : Gapless (methodOf (fieldOf (selfField (plain "service")) (plain "token"))
      "as_str" []) := gapless_method (by simp) (by simp)
  have hresult : PlainRereads (rules 2) (genericType "Result"
      [t.type "Values", t.type "MethodError"]) :=
    plain_result (plain_target ht (by decide)) (plain_target ht (by decide))
  have hfn : ∀ lines stmts, (∀ x ∈ stmts, Gapless x) → Gapless (publicFn (docs lines) {}
      (plain "values") [selfRef] (genericType "Result" [t.type "Values", t.type "MethodError"])
      stmts) := fun lines stmts hstmts =>
    gapless_publicFn (gapless_docs _) (by simp) hresult.plain hstmts
  unfold formFn
  dsimp only
  split
  · exact hfn _ _ (List.forall_mem_singleton.2 (hok _ hnew))
  · refine hfn _ _ fun x hx => ?_
    simp only [List.mem_append, List.mem_singleton] at hx
    rcases hx with ((rfl | hx) | hx) | rfl
    · exact gapless_letStmt (gapless_mutPat _) hnew
    · split at hx
      · cases hx
      · obtain rfl := List.mem_singleton.1 hx
        exact gapless_put t.tokenKey htoken
    · obtain ⟨s, -, hx⟩ := List.mem_flatMap.1 hx
      exact s.gapless_send ht x hx
    · exact hok _ (by simp)

/-! The response -/

theorem gapless_responseStruct (e : Endpoint) {payload : Ty}
    (hpayload : PlainRereads (rules n) payload) : Gapless (responseStruct t e payload) := by
  have henvelope : PlainRereads (rules 1) (t.type "ResponseEnvelope") := plain_target ht (by decide)
  have hoption : PlainRereads (rules (n + 1)) (genericType "Option" [payload]) :=
    plain_generic (by decide) (List.forall_mem_singleton.2 hpayload)
  refine gapless_structOf (by simp [decodeAttribute]) gapless_absent (List.forall_mem_cons.2
    ⟨gapless_fieldNamed (by simp [decodeAttribute]) henvelope.plain,
      List.forall_mem_singleton.2
        (gapless_fieldNamed (List.forall_mem_singleton.2 ?_) hoption.plain)⟩)
  split
  · exact gapless_listAttribute "serde" _
  · exact gapless_listAttribute "serde" _

theorem gapless_checkStmt {envelope : Expr} (h : Gapless envelope) :
    Gapless (checkStmt t envelope) :=
  gapless_ifStmt (gapless_negated (gapless_field h)) (List.forall_mem_singleton.2
    (gapless_failWith ht _ (List.forall_mem_singleton.2 (gapless_field h))))

theorem gapless_postStmts (e : Endpoint) (result : String) {response : Ty}
    (hresponse : PlainRereads (rules n) response) :
    ∀ x ∈ postStmts t e result response, Gapless x := by
  have hargs : ∀ a ∈ [wordExpr "ctx", wordExpr "ENDPOINT", borrowed (wordExpr "values")],
      Gapless a := by simp
  have htypes : Gapless (.angleArgs true (.cons (.typeArg response) .nil) false) :=
    gapless_angleArgs true false (List.forall_mem_singleton.2 fun _ =>
      gapless_plain hresponse.plain .usual)
  have hclient : Gapless (fieldOf (selfField (plain "service")) (plain "client")) :=
    gapless_field gapless_selfField
  have hcall : ∀ name, Gapless (.methodExpr (fieldOf (selfField (plain "service")) (plain "client"))
      name (.angleArgs true (.cons (.typeArg response) .nil) false) (.ofList _) false) :=
    fun name => gapless_methodExpr hclient htypes hargs
  have hsent := gapless_orFail ht (gapless_await (hcall (plain "post_form"))) "Post" (plain "endpoint")
    (gapless_wordExpr "ENDPOINT")
  have hvalues : Gapless (.tryExpr (methodOf (wordExpr "self") "values" [])) :=
    gapless_try (gapless_method (by simp) (by simp))
  simp only [postStmts, List.forall_mem_cons, List.not_mem_nil, false_imp_iff, implies_true,
    and_true]
  exact ⟨gapless_itemStmt (gapless_constItem (by rfl) (by simp)),
    gapless_letStmt (gapless_namePat _) hvalues, gapless_letStmt (gapless_namePat _) hsent⟩

/-- The function that sends a call, if the type of its payload is plain. -/
theorem gapless_postFn {e : Endpoint} {item : Item} (hitem : postFn t e = .ok item)
    (hpayload : ∀ type, readType e.name e.returnType = .ok type → e.hasReturn = true →
      Readable n type) : Gapless item := by
  have hfn : ∀ lines payload stmts, PlainRereads (rules (n + 1)) payload →
      (∀ x ∈ stmts, Gapless x) → Gapless (publicFn (docs lines) { async := true } (plain "execute")
        [selfRef, paramOf (plain "ctx") (referenceTo (t.type "Context"))]
        (genericType "Result" [payload, t.type "MethodError"]) stmts) := by
    intro lines payload stmts hpayload hstmts
    have hctx : PlainRereads (rules 2) (referenceTo (t.type "Context")) :=
      plain_reference none false (plain_target ht (by decide))
    have hresult : PlainRereads (rules (n + 2))
        (genericType "Result" [payload, t.type "MethodError"]) :=
      plain_result hpayload (plain_target ht (by decide))
    exact gapless_publicFn (gapless_docs _) (by simp [hctx.plain]) hresult.plain hstmts
  unfold postFn at hitem
  dsimp only at hitem
  split at hitem
  · cases pure_eq_ok_iff.1 hitem
    have hok : Gapless (valueStmt (callOf (wordExpr "Ok") [.tupleExpr .nil false])) :=
      gapless_exprStmt (gapless_call (by simp) (by simp)) false
    have hresponse : PlainRereads (rules 1) (t.type "ResponseEnvelope") :=
      plain_target ht (by decide)
    exact hfn _ _ _ plain_unit (List.forall_mem_append.2 ⟨gapless_postStmts ht e _ hresponse,
      List.forall_mem_cons.2 ⟨gapless_checkStmt ht (by simp), List.forall_mem_singleton.2 hok⟩⟩)
  · rename_i hreturn
    obtain ⟨payload, hread, hitem⟩ := bind_eq_ok_iff.1 hitem
    have hready := hpayload payload hread (by simpa using hreturn) (n + 1) (by omega)
    have hresponse : PlainRereads (rules 1) (wordType "Response") := plain_word (by decide)
    cases pure_eq_ok_iff.1 hitem
    have hmissing : ∀ named, Gapless (structOfFields
        (within t.runtime ["MethodError", "MissingPayload"])
        [setField (plain "endpoint") (wordExpr "ENDPOINT"),
          setField (plain "field") (textExpr named)]) := fun named =>
      gapless_struct (gapless_within ht _) (by simp)
    have hvalue : ∀ named, Gapless (valueStmt (methodOf (fieldOf (wordExpr "response")
        (plain "payload")) "ok_or" [_])) := fun named =>
      gapless_exprStmt
        (gapless_method (by simp) (List.forall_mem_singleton.2 (hmissing named))) false
    exact hfn _ _ _ hready (List.forall_mem_append.2 ⟨List.forall_mem_append.2
      ⟨List.forall_mem_singleton.2 (gapless_itemStmt (gapless_responseStruct ht e hready)),
        gapless_postStmts ht e _ hresponse⟩, List.forall_mem_cons.2 ⟨gapless_checkStmt ht (by simp),
          List.forall_mem_singleton.2 (hvalue _)⟩⟩)

end Functions

/-! Items -/

section Items

variable {t : Target} (ht : t.Named) {n : Nat}

theorem gapless_documented (lines : List String) : ∀ a ∈ docs lines ++ [derived], Gapless a :=
  List.forall_mem_append.2 ⟨gapless_docs _,
    List.forall_mem_singleton.2 (gapless_listAttribute "derive" _)⟩

include ht in
theorem gapless_service {group : String} {item : Item} (h : service t group = .ok item) :
    Gapless item := by
  obtain ⟨name, -, h⟩ := bind_eq_ok_iff.1 h
  cases pure_eq_ok_iff.1 h
  refine gapless_structOf (gapless_documented _) gapless_absent (List.forall_mem_cons.2
    ⟨gapless_fieldNamed (by simp) (plain_shared (g := rules 0) ht).plain,
      List.forall_mem_singleton.2 (gapless_fieldNamed (by simp) rfl)⟩)

theorem gapless_callStruct (m : Method) {name serviceName : Ident}
    (hservice : Ident.isKeyword serviceName = false) {slots : List Slot}
    (hslots : ∀ s ∈ slots, s.Ready n) : Gapless (callStruct m name serviceName slots) := by
  have howner : PlainRereads (rules 2)
      (.referenceType (some (plain "a")) false (pathType (servicePath serviceName))) :=
    plain_reference _ false (plain_names (isNames_servicePath hservice))
  refine gapless_structOf (gapless_documented _) (gapless_borrowing _) (List.forall_mem_cons.2
    ⟨gapless_fieldNamed (by simp) howner.plain, fun f hf => ?_⟩)
  obtain ⟨s, hs, rfl⟩ := List.mem_map.1 hf
  exact s.gapless_declaration (hslots s hs)

theorem gapless_startFn (m : Method) {name : Ident} (hname : Ident.isKeyword name = false)
    (constructor : Ident) {slots : List Slot} (hslots : ∀ s ∈ slots, s.Ready n) :
    Gapless (startFn m name constructor slots) := by
  have hparams : ∀ p ∈ selfRef :: (slots.filter (·.argument.required)).map Slot.param,
      Gapless p := by
    refine List.forall_mem_cons.2 ⟨gapless_selfRef, fun p hp => ?_⟩
    obtain ⟨s, hs, rfl⟩ := List.mem_map.1 hp
    exact s.gapless_param (hslots s (List.mem_of_mem_filter hs))
  have hfields : ∀ f ∈ setField (plain "service") (wordExpr "self") :: slots.map Slot.initial,
      Gapless f := by
    refine List.forall_mem_cons.2 ⟨by simp, fun f hf => ?_⟩
    obtain ⟨s, -, rfl⟩ := List.mem_map.1 hf
    exact s.gapless_initial
  have hcall : PlainRereads (rules 1) (borrowingType name (plain "_")) := plain_borrowing hname _
  exact gapless_publicFn (gapless_docs _) hparams hcall.plain (List.forall_mem_singleton.2
    (gapless_exprStmt (gapless_struct (gapless_names false [name]) hfields) false))

end Items

/-- The items of a call have a layout if the types that the catalog names for it are plain. -/
theorem gapless_items {t : Target} (ht : t.Named) {n : Nat} {p : Parts} (h : p.Ready t n) :
    ∀ i ∈ p.items t, Gapless i := by
  have hpath : PlainRereads (rules 1) (pathType (servicePath p.serviceName)) :=
    plain_names (isNames_servicePath h.serviceName)
  have hcall : PlainRereads (rules 1) (borrowingType p.name (plain "_")) := plain_borrowing h.name _
  have hsetters : ∀ i ∈ p.setters.flatten, Gapless i := by
    intro i hi
    obtain ⟨items, hitems, hi⟩ := List.mem_flatten.1 hi
    obtain ⟨s, hs, hset⟩ := exists_of_forall₂_right h.fit.setters hitems
    exact s.gapless_setters (h.slots s (List.mem_of_mem_filter hs)) hset i hi
  refine List.forall_mem_cons.2 ⟨gapless_callStruct _ h.serviceName h.slots, List.forall_mem_cons.2
    ⟨gapless_implOf hpath.plain (List.forall_mem_singleton.2 (gapless_startFn _ h.name _ h.slots)),
      List.forall_mem_singleton.2 (gapless_implOf hcall.plain ?_)⟩⟩
  exact List.forall_mem_append.2 ⟨hsetters, List.forall_mem_cons.2
    ⟨gapless_formFn ht _ _, List.forall_mem_singleton.2 (gapless_postFn ht h.fit.post h.payload)⟩⟩

/-- The index has a layout whatever the units are. -/
theorem index_text?_isSome {p : Plan} {s : Settings} {f : File} (h : index p s = .ok f) :
    f.text?.isSome = true := by
  obtain ⟨items, hitems, hf⟩ := bind_eq_ok_iff.1 h
  obtain rfl := pure_eq_ok_iff.1 hf
  refine text?_isSome_of_gapless (List.forall_mem_singleton.2 (gapless_doc true _))
    (List.forall_mem_cons.2 ⟨gapless_moduleItem (by simp) _, fun i hi => ?_⟩)
  obtain ⟨u, -, hi⟩ := exists_of_forall₂_right (mapM_eq_ok_iff.1 hitems) hi
  obtain ⟨name, -, hi⟩ := bind_eq_ok_iff.1 hi
  obtain rfl := pure_eq_ok_iff.1 hi
  refine gapless_moduleItem (fun a ha => ?_) _
  split at ha
  · obtain rfl := List.mem_singleton.1 ha
    exact gapless_pathAttribute _
  · cases ha

end Bindery.Emission
