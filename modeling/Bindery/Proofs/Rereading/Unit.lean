import Bindery.Proofs.Rereading.Post

/-!
# Emitted files are read again

The items of a call and of a service, and the files that consist of them.
-/
namespace Bindery.Emission

open Source Source.Parser Source.Grammar

variable {g : Rules} {t : Target} {n m : Nat}

theorem derived_rereads (g : Rules) : AttributeRereads g false derived :=
  listAttribute_rereads g (by decide) _

theorem documented_reread (lines : List String) :
    ∀ a ∈ docs lines ++ [derived], AttributeRereads g false a :=
  List.forall_mem_append.2 ⟨docs_reread g lines, List.forall_mem_singleton.2 (derived_rereads g)⟩

/-! Services -/

/-- A service as units see it. -/
theorem isNames_servicePath {name : Ident} (h : Ident.isKeyword name = false) :
    IsNames (servicePath name) := by
  refine .of false (plain "super") [plain "services", name] ?_ (by decide)
  simpa using ⟨by decide, by decide, isSegmentName_of_not_keyword h⟩

/-- The client that the services share. -/
theorem plain_shared (ht : t.Named) : PlainRereads g.above.above (pathType (.path false (.ofList
    [segmentOf (plain "std"), segmentOf (plain "sync"),
      segmentWith (plain "Arc") [t.type "HttpClient"]]))) :=
  plain_segments (List.forall_mem_cons.2 ⟨namedRereads_bare (by decide), List.forall_mem_cons.2
    ⟨namedRereads_bare (by decide), List.forall_mem_singleton.2 (namedRereads_types (by decide)
      (List.forall_mem_singleton.2 (plain_target ht (by decide))))⟩⟩) rfl

theorem service_rereads (ht : t.Named) {group : String} {item : Item}
    (h : service t group = .ok item) : ItemRereads g.above.above item := by
  obtain ⟨name, hname, h⟩ := bind_eq_ok_iff.1 h
  have hkeyword : Ident.isKeyword name = false := isKeyword_spelledIdent (by decide) hname
  cases pure_eq_ok_iff.1 h
  have hallow : AttributeRereads g.above.above false (listAttribute "allow" [.word "dead_code"]) :=
    listAttribute_rereads _ (by decide) _
  refine structOf_rereads (documented_reread _) (.inr rfl) hkeyword reads_noParams
    (List.forall_mem_cons.2 ⟨?_, List.forall_mem_singleton.2 ?_⟩) (List.cons_ne_nil _ _)
  · exact fieldNamed_rereads (fun _ h => absurd h List.not_mem_nil) crate_rereads (by decide)
      (plain_shared ht)
  · exact fieldNamed_rereads (List.forall_mem_singleton.2 hallow) crate_rereads (by decide)
      (plain_word (by decide))

/-! Calls -/

section Calls

variable {slots : List Slot} (hslots : ∀ s ∈ slots, s.Ready n) (hm : n ≤ m)
include hslots hm

theorem callStruct_rereads (method : Method) {name serviceName : Ident}
    (hname : Ident.isKeyword name = false) (hservice : Ident.isKeyword serviceName = false) :
    ItemRereads (rules (m + 2)) (callStruct method name serviceName slots) := by
  have howner : PlainRereads (rules (m + 2))
      (.referenceType (some (plain "a")) false (pathType (servicePath serviceName))) :=
    plain_reference _ false (plain_names (isNames_servicePath hservice))
  refine structOf_rereads (documented_reread _) (.inr rfl) hname
    (fun inner rest => reads_borrowing (plain "a") _) (List.forall_mem_cons.2 ⟨?_, fun f hf => ?_⟩)
    (List.cons_ne_nil _ _)
  · exact fieldNamed_rereads (fun _ h => absurd h List.not_mem_nil) inherited_rereads
      (by decide) howner
  · obtain ⟨s, hs, rfl⟩ := List.mem_map.1 hf
    exact s.declaration_rereads (hslots s hs) (by omega)

/-- The function that starts a call. -/
theorem startFn_rereads (method : Method) {name constructor : Ident}
    (hname : Ident.isKeyword name = false) (hconstructor : Ident.isKeyword constructor = false) :
    MemberRereads (rules (m + 5)) (startFn method name constructor slots) := by
  have hparams : ∀ p ∈ (slots.filter (·.argument.required)).map Slot.param,
      ParamRereads (rules (m + 5)) p ∧ isSelf p = false := by
    intro p hp
    obtain ⟨s, hs, rfl⟩ := List.mem_map.1 hp
    exact ⟨s.param_rereads (m := m + 3) (hslots s (List.mem_of_mem_filter hs)) (by omega), rfl⟩
  have hfields : ∀ f ∈ setField (plain "service") (wordExpr "self") :: slots.map Slot.initial,
      FieldValueRereads (rules (m + 3)) f := by
    refine List.forall_mem_cons.2 ⟨setField_rereads (by decide) (operand_names isNames_self).expr,
      fun f hf => ?_⟩
    obtain ⟨s, hs, rfl⟩ := List.mem_map.1 hf
    exact s.initial_rereads (hslots s hs).field
  have hstruct : OperandRereads (rules (m + 3)) true Closed (structOfFields
      (.path false (.cons (segmentOf name) .nil))
      (setField (plain "service") (wordExpr "self") :: slots.map Slot.initial)) :=
    operand_struct (isNames_name hname) (List.cons_ne_nil _ _) hfields
  have helse : (name != ⟨"else", false⟩) = true := by
    simpa using ne_of_not_keyword hname (w := "else") (by decide)
  have hresult : ResultRereads (rules (m + 4)) (structOfFields
      (.path false (.cons (segmentOf name) .nil))
      (setField (plain "service") (wordExpr "self") :: slots.map Slot.initial)) :=
    resultRereads rfl hstruct.unary_value (startsExprStmt_name (.inl hname) rfl rfl rfl) helse
  exact publicFn_rereads _ false hconstructor
    (List.forall_mem_cons.2 ⟨selfRef_rereads, fun p hp => (hparams p hp).1⟩)
    (fun p hp => (hparams p hp).2) (plain_borrowing hname _) (blockRereads (.result hresult))

end Calls

section Items

/-- Parts that fit, with types that are read again. -/
structure Parts.Ready (t : Target) (n : Nat) (p : Parts) : Prop where
  fit : p.Fit t
  types : ∀ s ∈ p.slots, ∀ type ∈ s.types, Readable n type
  payload : ∀ type, readType p.method.endpoint.name p.method.endpoint.returnType = .ok type →
    p.method.endpoint.hasReturn = true → Readable n type

namespace Parts.Ready

variable {p : Parts} (h : p.Ready t n)
include h

theorem slots : ∀ s ∈ p.slots, s.Ready n := by
  intro s hs
  obtain ⟨a, -, hof⟩ := exists_of_forall₂_right h.fit.slots hs
  exact ⟨isKeyword_catalogIdent (Slot.holds hof).field, h.types s hs⟩

theorem name : Ident.isKeyword p.name = false := isKeyword_spelledIdent (by decide) h.fit.name

theorem serviceName : Ident.isKeyword p.serviceName = false :=
  isKeyword_spelledIdent (by decide) h.fit.serviceName

end Parts.Ready

/-- The items of a call are read again if the types that the catalog names for it are. -/
theorem items_reread {p : Parts} (h : p.Ready t n) (ht : t.Named) (hm : n ≤ m) :
    ∀ i ∈ p.items t, ItemRereads (rules (m + 8)) i := by
  have hpath : PlainRereads (rules (m + 8)) (pathType (servicePath p.serviceName)) :=
    plain_names (isNames_servicePath h.serviceName)
  have hcall : PlainRereads (rules (m + 8)) (borrowingType p.name (plain "_")) :=
    plain_borrowing h.name _
  have hconst := ne_of_not_keyword h.name (w := "const") (by decide)
  have hpost : MemberRereads (rules (m + 8)) p.post := postFn_rereads ht h.fit.post h.payload hm
  have hsetters : ∀ i ∈ p.setters.flatten, MemberRereads (rules (m + 8)) i := by
    intro i hi
    obtain ⟨items, hitems, hi⟩ := List.mem_flatten.1 hi
    obtain ⟨s, hs, hset⟩ := exists_of_forall₂_right h.fit.setters hitems
    exact s.setters_reread (m := m + 4) (h.slots s (List.mem_of_mem_filter hs)) hset (by omega) i hi
  refine List.forall_mem_cons.2 ⟨callStruct_rereads (m := m + 6) h.slots (by omega) _ h.name
    h.serviceName, List.forall_mem_cons.2 ⟨?_, List.forall_mem_singleton.2 ?_⟩⟩
  · exact implOf_rereads hpath (fun rest => startsName_ident (by decide) _)
      (List.forall_mem_singleton.2 (startFn_rereads (m := m + 3) h.slots (by omega) _ h.name
        (isKeyword_catalogIdent h.fit.constructor)))
  · refine implOf_rereads hcall (fun rest => ?_) (List.forall_mem_append.2 ⟨hsetters,
      List.forall_mem_cons.2 ⟨?_, List.forall_mem_singleton.2 hpost⟩⟩)
    · rw [tokens_borrowingType]
      exact startsName_ident hconst _
    · exact formFn_rereads ht _ fun s hs => (h.slots s hs).field

end Items

end Bindery.Emission
