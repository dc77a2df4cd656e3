import Bindery.Proofs.Documentation.Code

/-!
# Calls with other documentation

The items of a call, emitted for two methods that differ in documentation, are read in step and are
the same without it.
-/
namespace Bindery

open Source Source.Grammar

theorem Argument.exists_of_undocumented_eq {a a' : Argument} (h : a.undocumented = a'.undocumented) :
    ∃ comment default, a' = { a with comment, default } := by
  cases a
  cases a'
  simp only [undocumented, mk.injEq, true_and] at h
  obtain ⟨rfl, rfl, rfl, rfl, rfl⟩ := h
  exact ⟨_, _, rfl⟩

namespace Emission

/-! Slots -/

/-- A slot with other documentation. -/
def Slot.Redocumented (s s' : Slot) : Prop :=
  ∃ comment default, s' = { s with argument := { s.argument with comment, default } }

/-- A slot whose field can be read. -/
structure Slot.Settled (s : Slot) : Prop where
  field : Ident.isKeyword s.field = false
  type : Enclosed s.fieldType

theorem Slot.settled {endpoint : String} {a : Argument} {s : Slot} (h : Slot.of endpoint a = .ok s) :
    s.Settled := by
  have hs := Slot.holds h
  refine ⟨isKeyword_catalogIdent hs.field, ?_⟩
  have hpaired : ∀ type ∈ s.types, type.IsPaired := by
    intro type htype
    obtain ⟨text, hread, -⟩ := hs.types type htype
    exact isPaired_of_readType hread
  unfold Slot.types at hpaired
  unfold Slot.fieldType
  split
  · exact enclosed_word (by decide)
  · exact enclosed_word (by decide)
  · exact enclosed_word (by decide)
  · rename_i hstorage
    exact enclosed_genericType (by decide) (by simpa [hstorage] using hpaired)
  · rename_i hstorage
    exact enclosed_genericType (by decide) (by simpa [hstorage] using hpaired)

/-- How an argument is stored is read without a look at its documentation. -/
theorem Slot.exists_of_eq (endpoint : String) (a : Argument) :
    ∃ read : Except Failure Storage, ∀ comment default, Slot.of endpoint { a with comment, default } =
      read >>= fun storage => catalogIdent a.name >>= fun field =>
        pure ⟨{ a with comment, default }, field, storage⟩ := by
  obtain ⟨name, type, required, _, queryName, _, singular⟩ := a
  cases type with
  | text => exact ⟨pure .text, fun _ _ => rfl⟩
  | boolean => exact ⟨pure .boolean, fun _ _ => rfl⟩
  | integer => exact ⟨pure .integer, fun _ _ => rfl⟩
  | list element => exact ⟨Storage.list <$> readType endpoint element, fun _ _ => by simp [Slot.of]⟩
  | object type => exact ⟨Storage.object <$> readType endpoint type, fun _ _ => by simp [Slot.of]⟩

theorem Slot.sameOutcome_of (endpoint : String) {a a' : Argument}
    (h : a.undocumented = a'.undocumented) :
    SameOutcome (fun s s' => Slot.Redocumented s s' ∧ s.Settled) (Slot.of endpoint a)
      (Slot.of endpoint a') := by
  obtain ⟨comment, default, rfl⟩ := Argument.exists_of_undocumented_eq h
  obtain ⟨read, hread⟩ := Slot.exists_of_eq endpoint a
  have hslot : SameOutcome Slot.Redocumented (Slot.of endpoint a)
      (Slot.of endpoint { a with comment, default }) := by
    rw [hread comment default, show Slot.of endpoint a = _ from hread a.comment a.default]
    exact .step _ fun storage _ => .step _ fun field _ => .ok ⟨comment, default, rfl⟩
  exact hslot.imp fun s s' hs _ hdoc => ⟨hdoc, Slot.settled hs⟩

namespace Slot.Redocumented

variable {s s' : Slot} (h : Slot.Redocumented s s')
include h

theorem required_eq : s'.argument.required = s.argument.required := by
  obtain ⟨comment, default, rfl⟩ := h
  rfl

theorem param_eq : s'.param = s.param := by
  obtain ⟨comment, default, rfl⟩ := h
  rfl

theorem initial_eq : s'.initial = s.initial := by
  obtain ⟨comment, default, rfl⟩ := h
  rfl

theorem send_eq (t : Target) : s'.send t = s.send t := by
  obtain ⟨comment, default, rfl⟩ := h
  rfl

/-- The fields differ in documentation. -/
theorem inStep_declaration (hs : s.Settled) {n : Nat} (hn : 15 ≤ n) :
    Parser.InStep TypeEnd SameField (namedField (rules (n + 1))) s.declaration.tokens
      s'.declaration.tokens := by
  obtain ⟨comment, default, rfl⟩ := h
  exact inStep_field hs.field (hs.type n hn) _ _

theorem bare_declaration : SameBare s.declaration.tokens s'.declaration.tokens := by
  obtain ⟨comment, default, rfl⟩ := h
  rw [Slot.declaration, Slot.declaration, tokens_fieldNamed, tokens_fieldNamed]
  exact ((sameBare_docs _ _).append (.refl _)).append (.refl _)

/-- The functions that set the argument differ in documentation. -/
theorem sameOutcome_setters (hs : s.Settled) :
    SameOutcome (List.Forall₂ (SameCode implMember SameFn)) s.setters s'.setters := by
  obtain ⟨comment, default, rfl⟩ := h
  have hself : Enclosed (wordType "Self") := enclosed_word (by decide)
  have hsetter : ∀ lines lines' name param change, SameCode implMember SameFn
      (setter lines name param change) (setter lines' name param change) :=
    fun lines lines' name param change => sameCode_publicFn lines lines' false name _ hself _
  obtain ⟨a, field, storage⟩ := s
  cases storage with
  | list element =>
    refine .step _ fun replace _ => .step _ fun append _ => ?_
    dsimp only
    split
    · exact .ok (.cons (hsetter _ _ _ _ _) (.cons (hsetter _ _ _ _ _) .nil))
    · exact .ok (.cons (hsetter _ _ _ _ _) (.cons (hsetter _ _ _ _ _) .nil))
  | _ => exact .ok (.cons (hsetter _ _ _ _ _) .nil)

end Slot.Redocumented

/-! The items of a call -/

section Items

variable {m m' : Method} (h : m.undocumented = m'.undocumented) {slots slots' : List Slot}
  (hslots : List.Forall₂ (fun s s' => Slot.Redocumented s s' ∧ s.Settled) slots slots')

include hslots in
theorem map_eq_of_redocumented {α : Type} {f : Slot → α}
    (hf : ∀ s s', Slot.Redocumented s s' → f s' = f s) : slots'.map f = slots.map f :=
  map_eq_of_forall₂ hslots fun s _ s' hs => hf s s' hs.1

include hslots in
theorem filter_redocumented (keep : Slot → Bool)
    (hkeep : ∀ s s', Slot.Redocumented s s' → keep s' = keep s) :
    List.Forall₂ (fun s s' => Slot.Redocumented s s' ∧ s.Settled) (slots.filter keep)
      (slots'.filter keep) := by
  refine List.rel_filter (fun s s' hs => ?_) hslots
  dsimp only
  rw [hkeep s s' hs.1]

theorem callDocs_undocumented (m : Method) : callDocs m.undocumented = callDocs m := by
  have hrequired : m.undocumented.required = m.required.map Argument.undocumented := by
    unfold Method.required
    exact List.filter_map
  unfold callDocs
  rw [hrequired, List.map_map]
  rfl

include h hslots in
/-- The call types differ in the documentation of their fields. -/
theorem sameCode_callStruct (name : Ident) {serviceName : Ident}
    (hservice : Ident.isKeyword serviceName = false) :
    SameCode Grammar.item SameItem (callStruct m name serviceName slots)
      (callStruct m' name serviceName slots') := by
  have hdocs : callDocs m' = callDocs m := by
    rw [← callDocs_undocumented m, h, callDocs_undocumented]
  have hitem : ∀ m : Method, ∀ slots, callStruct m name serviceName slots =
      structOf (docs (callDocs m) ++ [derived]) publicFront name (borrowing (plain "a"))
        (fieldNamed (docs []) .inherited (plain "service")
          (.referenceType (some (plain "a")) false (pathType (servicePath serviceName))) ::
          slots.map Slot.declaration) := fun _ _ => rfl
  have howner := enclosed_owner hservice (plain "a")
  have hattrs : ∀ g, ∀ a ∈ docs (callDocs m) ++ [derived], AttributeRereads g false a := by
    intro g a ha
    rcases List.mem_append.1 ha with ha | ha
    · exact docs_reread g _ a ha
    · cases List.mem_singleton.1 ha
      exact listAttribute_rereads g (by decide) _
  have hinner : ∀ fields rest, NoInner ((structOf (docs (callDocs m) ++ [derived]) publicFront name
      (borrowing (plain "a")) fields).tokens ++ rest) := by
    intro fields rest
    rw [tokens_structOf, List.flatMap_append, List.append_assoc, List.append_assoc]
    exact noInner_docs _ rfl
  rw [hitem, hitem, hdocs]
  refine ⟨fun n hn => ?_, ?_, hinner _, hinner _⟩
  · refine inStep_structOf (hattrs _) name (plain "a") ?_
    refine .cons (inStep_field (by decide) (howner n hn) [] []) ?_
    simp only [List.map_map, List.forall₂_map_left_iff, List.forall₂_map_right_iff]
    exact hslots.imp fun s s' hs => hs.1.inStep_declaration hs.2 hn
  · rw [tokens_structOf, tokens_structOf]
    refine (SameBare.refl _).append (.cons _ (.cons _ (.cons _ ((SameBare.refl _).append
      (.group (.commas (.cons (.refl _) ?_)) _)))))
    simp only [List.map_map, List.forall₂_map_left_iff, List.forall₂_map_right_iff]
    exact hslots.imp fun s s' hs => hs.1.bare_declaration

include h hslots in
/-- Calls are started in the same way. -/
theorem startFn_eq (name constructor : Ident) :
    startFn m' name constructor slots' = startFn m name constructor slots := by
  have hname : m'.endpoint.name = m.endpoint.name := congrArg (·.endpoint.name) h.symm
  have hinitial := map_eq_of_redocumented hslots fun s s' hs => hs.initial_eq
  have hparams := map_eq_of_redocumented
    (filter_redocumented hslots (·.argument.required) fun s s' hs => hs.required_eq)
    fun s s' hs => hs.param_eq
  unfold startFn
  rw [hname, hinitial, hparams]

include h hslots in
/-- The form is filled in the same way. -/
theorem formFn_eq (t : Target) : formFn t m' slots' = formFn t m slots := by
  have hname : m'.endpoint.name = m.endpoint.name := congrArg (·.endpoint.name) h.symm
  have hskip : m'.endpoint.skipToken = m.endpoint.skipToken :=
    congrArg (·.endpoint.skipToken) h.symm
  have hempty : slots'.isEmpty = slots.isEmpty := by
    cases hslots <;> rfl
  have hsend : slots'.flatMap (Slot.send t) = slots.flatMap (Slot.send t) := by
    rw [List.flatMap_def, List.flatMap_def,
      map_eq_of_redocumented hslots fun s s' hs => hs.send_eq t]
  unfold formFn
  rw [hname, hskip, hempty, hsend]

end Items

theorem sameCode_formFn {t : Target} (ht : HasPairedSegments t.runtime) (m : Method)
    (slots : List Slot) : SameCode implMember SameFn (formFn t m slots) (formFn t m slots) := by
  have hresult : Enclosed (genericType "Result" [t.type "Values", t.type "MethodError"]) :=
    enclosed_genericType (by decide) (by simp [isPaired_targetType ht])
  unfold formFn
  dsimp only
  split
  · exact sameCode_publicFn _ _ false _ _ hresult _
  · exact sameCode_publicFn _ _ false _ _ hresult _

theorem sameCode_postFn {t : Target} (ht : HasPairedSegments t.runtime) {e : Endpoint} {item : Item}
    (h : postFn t e = .ok item) : SameCode implMember SameFn item item := by
  have hresult : ∀ payload : Ty, payload.IsPaired →
      Enclosed (genericType "Result" [payload, t.type "MethodError"]) := fun payload hpayload =>
    enclosed_genericType (by decide) (by simp [hpayload, isPaired_targetType ht])
  unfold postFn at h
  dsimp only at h
  split at h
  · cases pure_eq_ok_iff.1 h
    have hunit : Tree.IsPaired (.tupleType .nil false) := .flat rfl .nil
    exact sameCode_publicFn _ _ true _ _ (hresult _ hunit) _
  · obtain ⟨payload, hread, h⟩ := bind_eq_ok_iff.1 h
    cases pure_eq_ok_iff.1 h
    exact sameCode_publicFn _ _ true _ _ (hresult _ (isPaired_of_readType hread)) _

/-- An implementation begins with no attribute. -/
theorem noInner_implOf (t : Ty) (items : List Item) (rest : List Token) :
    NoInner ((implOf t items).tokens ++ rest) := by
  rw [tokens_implOf]
  rfl

/-- An implementation that is the same in both runs. -/
theorem sameCode_service {name : Ident} (h : Ident.isKeyword name = false) (items : List Item) :
    SameCode Grammar.item SameItem (implOf (pathType (servicePath name)) items)
      (implOf (pathType (servicePath name)) items) := by
  refine ⟨fun n hn => ?_, .refl _, noInner_implOf _ _, noInner_implOf _ _⟩
  have hsuper : plain "super" ≠ ⟨"const", false⟩ := by decide
  have hstart : ∀ rest, StartsName ((pathType (servicePath name)).tokens ++ rest) := fun rest =>
    startsName_ident hsuper _
  exact inStep_implOf_same hstart (enclosed_service h n hn) items

/-- An implementation whose functions differ in documentation. -/
theorem sameCode_functions {name : Ident} (h : Ident.isKeyword name = false) {fns fns' : List Item}
    (hfns : List.Forall₂ (SameCode implMember SameFn) fns fns') :
    SameCode Grammar.item SameItem (implOf (borrowingType name (plain "_")) fns)
      (implOf (borrowingType name (plain "_")) fns') := by
  have hconst := ne_of_not_keyword h (w := "const") (by decide)
  refine ⟨fun n hn => ?_, ?_, noInner_implOf _ _, noInner_implOf _ _⟩
  · refine inStep_implOf_fns (fun rest => ?_) (enclosed_borrowingType h _ n hn)
      (SameCode.noInner_left hfns) (SameCode.noInner_right hfns) (SameCode.inStep_map hfns hn)
    rw [tokens_borrowingType]
    exact startsName_ident hconst _
  · rw [tokens_implOf, tokens_implOf]
    exact .cons _ ((SameBare.refl _).append (.group (SameCode.bare_flatMap hfns) _))

/-- For methods that differ in documentation there are no items for the same reason, or items that
differ in documentation. -/
theorem sameOutcome_call {t : Target} (ht : HasPairedSegments t.runtime) {m m' : Method}
    (h : m.undocumented = m'.undocumented) :
    SameOutcome (List.Forall₂ (SameCode Grammar.item SameItem)) (call t m) (call t m') := by
  have hname : m'.endpoint.name = m.endpoint.name := congrArg (·.endpoint.name) h.symm
  have hcall : m'.callType = m.callType := (congrArg Method.callType h.symm :)
  have hservice : m'.serviceType = m.serviceType := (congrArg Method.serviceType h.symm :)
  have hconstructor : m'.constructor = m.constructor := (congrArg Method.constructor h.symm :)
  have hpost : postFn t m'.endpoint = postFn t m.endpoint :=
    congrArg (fun m => postFn t m.endpoint) h.symm
  have harguments := forall₂_eq_iff.2 (congrArg Method.arguments h)
  unfold call
  rw [hname, hcall, hservice, hconstructor, hpost]
  refine (SameOutcome.mapM (harguments.imp fun a a' ha => Slot.sameOutcome_of _ ha)).bind
    fun slots slots' hslots => .step _ fun name hname => .step _ fun service hservice =>
    .step _ fun constructor _ => .step _ fun post hpost => ?_
  have hoptional := filter_redocumented hslots (!·.argument.required)
    fun s s' hs => by rw [hs.required_eq]
  refine (SameOutcome.mapM (hoptional.imp fun s s' hs => hs.1.sameOutcome_setters hs.2)).bind
    fun setters setters' hsetters => .ok ?_
  have hcallName : Ident.isKeyword name = false := isKeyword_spelledIdent (by decide) hname
  have hserviceName : Ident.isKeyword service = false := isKeyword_spelledIdent (by decide) hservice
  rw [startFn_eq h hslots, formFn_eq h hslots]
  refine .cons (sameCode_callStruct h hslots name hserviceName) (.cons
    (sameCode_service hserviceName _) (.cons (sameCode_functions hcallName ?_) .nil))
  exact List.rel_append (List.rel_flatten hsetters) (.cons (sameCode_formFn ht m slots)
    (.cons (sameCode_postFn ht hpost) .nil))

end Emission

end Bindery
