import Bindery.Proofs.Rereading.Layout
import Bindery.Proofs.Source.BareSizes

/-!
# Levels suffice for emitted files

Each type of the catalog stands somewhere in the file of its unit, so that its tokens are among those
that the levels of the rules are counted by.
-/
namespace Bindery.Emission

open Source

/-! Where types stand -/

/-- The first argument stands behind an angle. -/
theorem infix_genericType (w : String) (type : Ty) (others : List Ty) :
    .punct '<' false :: type.tokens <:+: (genericType w (type :: others)).tokens := by
  obtain ⟨more, hmore⟩ : ∃ more, commas false
      (((type :: others).map Tree.typeArg).map Tree.tokens) =
      type.tokens ++ more := by
    cases others with
    | nil => exact ⟨_, rfl⟩
    | cons => exact ⟨_, List.append_assoc ..⟩
  have htokens : (genericType w (type :: others)).tokens = .ident (plain w) ::
      (Tree.tokens (.angleArgs false (.ofList ((type :: others).map .typeArg)) false) ++ []) := rfl
  rw [htokens, tokens_angleArgs_ofList (lifetimesFirst_types _), hmore]
  exact ⟨[.ident (plain w)], more ++ punct '>', by simp⟩

theorem infix_publicFn (attrs : List Attribute) (async : Bool) (name : Ident)
    (inputs : List (Tree (.one .param))) (output : Ty) (stmts : List Stmt) :
    output.tokens <:+: (publicFn attrs { async } name inputs output stmts).tokens := by
  have hsig : output.tokens <:+: signatureTokens async name (commas false (inputs.map Tree.tokens))
      output.tokens := by
    refine .trans ?_ (List.suffix_append _ _).isInfix
    exact List.infix_cons (List.infix_cons (List.infix_cons (List.suffix_append _ _).isInfix))
  rw [tokens_publicFn]
  refine .trans ?_ (List.suffix_append _ _).isInfix
  exact List.infix_cons (hsig.trans (List.prefix_append _ _).isInfix)

theorem mem_structOf (attrs : List Attribute) (name : Ident) (generics : Tree (.maybe .params))
    (fields : List (Tree (.one .field))) : .group .brace (commas true (fields.map Tree.tokens)) ∈
      (structOf attrs publicFront name generics fields).tokens := by
  rw [tokens_structOf]
  simp

theorem mem_implOf (type : Ty) (items : List Item) :
    .group .brace (items.flatMap Tree.tokens) ∈ (implOf type items).tokens := by
  rw [tokens_implOf]
  simp

section Types

variable {t : Target} {p : Parts}

theorem infix_declaration {s : Slot} {type : Ty} (htype : type ∈ s.types) :
    .punct '<' false :: type.tokens <:+: s.declaration.tokens := by
  have hfield : .punct '<' false :: type.tokens <:+: s.fieldType.tokens := by
    unfold Slot.types at htype
    unfold Slot.fieldType
    split <;> simp_all [infix_genericType]
  have hsuffix : s.fieldType.tokens <:+ .ident s.field :: .punct ':' false :: s.fieldType.tokens :=
    (List.suffix_cons _ _).trans (List.suffix_cons _ _)
  rw [Slot.declaration, tokens_fieldNamed]
  exact hfield.trans (hsuffix.trans (List.suffix_append _ _)).isInfix

/-- The types of the fields stand in the declaration of the call. -/
theorem sizeAll_lt_callItem {s : Slot} (hs : s ∈ p.slots) {type : Ty} (htype : type ∈ s.types)
    (hplain : type.isPlain = true) {ts : List Token} (h : p.callItem.tokens <:+: ts) :
    Token.sizeAll type.tokens < Token.sizeAll (Token.bareAll ts) := by
  obtain ⟨inner, hgroup, hinner⟩ : ∃ inner, .group .brace inner ∈ p.callItem.tokens ∧
      s.declaration.tokens <:+: inner :=
    ⟨_, mem_structOf _ _ _ _, infix_commas (List.mem_map_of_mem
      (List.mem_cons_of_mem _ (List.mem_map_of_mem hs))) true⟩
  exact Nat.lt_of_le_of_lt (sizeAll_le_bareAll hplain (by decide)
    ((infix_declaration htype).trans hinner)) (sizeAll_bareAll_group (by decide) (h.subset hgroup))

/-- The type of a payload stands in the function that sends the call. -/
theorem infix_postFn {e : Endpoint} {item : Item} (hitem : postFn t e = .ok item)
    (hreturn : e.hasReturn = true) {type : Ty} (hread : readType e.name e.returnType = .ok type) :
    .punct '<' false :: type.tokens <:+: item.tokens := by
  unfold postFn at hitem
  dsimp only at hitem
  rw [hreturn] at hitem
  obtain ⟨payload, hpayload, hitem⟩ := bind_eq_ok_iff.1 hitem
  obtain rfl := Except.ok.inj (hread.symm.trans hpayload)
  cases pure_eq_ok_iff.1 hitem
  exact (infix_genericType _ _ _).trans (infix_publicFn _ true _ _ _ _)

theorem sizeAll_lt_functionsItem (hfit : p.Fit t) (hreturn : p.method.endpoint.hasReturn = true)
    {type : Ty} (hread : readType p.method.endpoint.name p.method.endpoint.returnType = .ok type)
    (hplain : type.isPlain = true) {ts : List Token} (h : (p.functionsItem t).tokens <:+: ts) :
    Token.sizeAll type.tokens < Token.sizeAll (Token.bareAll ts) := by
  have hpost : p.post ∈ p.setters.flatten ++ [formFn t p.method p.slots, p.post] := by simp
  obtain ⟨inner, hgroup, hinner⟩ : ∃ inner, .group .brace inner ∈ (p.functionsItem t).tokens ∧
      p.post.tokens <:+: inner :=
    ⟨_, mem_implOf _ _, infix_flatMap Tree.tokens hpost⟩
  exact Nat.lt_of_le_of_lt (sizeAll_le_bareAll hplain (by decide)
    ((infix_postFn hfit.post hreturn hread).trans hinner))
    (sizeAll_bareAll_group (by decide) (h.subset hgroup))

end Types

/-! Files -/

section Files

variable {t : Target} (ht : t.Named) {f : File}

section Services

include ht

theorem services_rereads {groups : List String} (h : services t groups = .ok f) :
    File.ofTokens f.tokens = .ok f := by
  obtain ⟨items, hitems, hf⟩ := bind_eq_ok_iff.1 h
  obtain rfl := pure_eq_ok_iff.1 hf
  refine File.ofTokens_tokens (fun _ ha => absurd ha List.not_mem_nil) fun i hi => ?_
  obtain ⟨group, -, hi⟩ := exists_of_forall₂_right (mapM_eq_ok_iff.1 hitems) hi
  exact service_rereads ht hi

theorem services_text?_isSome {groups : List String} (h : services t groups = .ok f) :
    f.text?.isSome = true := by
  obtain ⟨items, hitems, hf⟩ := bind_eq_ok_iff.1 h
  obtain rfl := pure_eq_ok_iff.1 hf
  refine text?_isSome_of_gapless (fun _ ha => absurd ha List.not_mem_nil) fun i hi => ?_
  obtain ⟨group, -, hi⟩ := exists_of_forall₂_right (mapM_eq_ok_iff.1 hitems) hi
  exact gapless_service ht hi

end Services

section Unit

variable {ms : List Method} (h : unit t ms = .ok f)
  (harguments : ∀ m ∈ ms, ∀ a ∈ m.arguments, a ∈ m.endpoint.arguments)
  (hplain : ∀ m ∈ ms, ∀ text ∈ Validation.typeTexts m.endpoint, ∀ type,
    readType m.endpoint.name text = .ok type → type.isPlain = true)
include h

theorem unit_attrs : f.attrs = [] := by
  obtain ⟨calls, -, hf⟩ := bind_eq_ok_iff.1 h
  exact congrArg File.attrs (pure_eq_ok_iff.1 hf).symm

include harguments hplain

/-- The levels for a file suffice for the types in it, since they stand there. -/
theorem exists_ready : ∀ i ∈ f.items, ∃ p : Parts, i ∈ p.items t ∧
    p.Ready t (Token.sizeAll (Token.bareAll f.tokens)) := by
  intro i hi
  obtain ⟨calls, hcalls, hf⟩ := bind_eq_ok_iff.1 h
  have hitems : f.items = calls.flatten := congrArg File.items (pure_eq_ok_iff.1 hf).symm
  obtain ⟨items, hmem, hi⟩ := List.mem_flatten.1 (hitems ▸ hi)
  obtain ⟨m, hm, hcall⟩ := exists_of_forall₂_right (mapM_eq_ok_iff.1 hcalls) hmem
  obtain ⟨p, rfl, hfit, rfl⟩ := exists_parts hcall
  have htokens : ∀ i ∈ p.items t, i.tokens <:+: f.tokens := fun i hi => by
    have hfile : f.tokens = f.items.flatMap Tree.tokens := by simp [File.tokens, unit_attrs h]
    rw [hfile, hitems]
    exact infix_flatMap Tree.tokens (List.mem_flatten.2 ⟨_, hmem, hi⟩)
  have hready : ∀ type : Ty, type.isPlain = true →
      Token.sizeAll type.tokens < Token.sizeAll (Token.bareAll f.tokens) →
      Readable (Token.sizeAll (Token.bareAll f.tokens)) type :=
    fun type hplain hsize n hn => ⟨hplain, typeRereads n type hplain (by omega)⟩
  refine ⟨p, hi, hfit, fun s hs type htype => ?_, fun type hread hreturn => ?_⟩
  · obtain ⟨a, ha, hof⟩ := exists_of_forall₂_right hfit.slots hs
    obtain ⟨text, hread, hkind⟩ := (Slot.holds hof).types type htype
    have hplain := hplain _ hm text (mem_typeTexts (harguments _ hm a ha) hkind) type hread
    exact hready type hplain (sizeAll_lt_callItem hs htype hplain
        (htokens _ (by simp [Parts.items])))
  · have hplain := hplain _ hm _ (by simp [Validation.typeTexts, hreturn]) type hread
    exact hready type hplain
      (sizeAll_lt_functionsItem hfit hreturn hread hplain (htokens _ (by simp [Parts.items])))

include ht

/-- The file of a unit is read again if the types that the catalog names are plain. -/
theorem unit_rereads : File.ofTokens f.tokens = .ok f := by
  refine File.ofTokens_tokens (fun a ha => ?_) fun i hi => ?_
  · rw [unit_attrs h] at ha
    cases ha
  · obtain ⟨p, hi, hp⟩ := exists_ready h harguments hplain i hi
    have hlevels : levels f.tokens = 2 * Token.sizeAll (Token.bareAll f.tokens) + 8 + 8 := rfl
    rw [hlevels]
    exact items_reread hp ht (by omega) i hi

theorem unit_text?_isSome : f.text?.isSome = true := by
  refine text?_isSome_of_gapless (fun a ha => ?_) fun i hi => ?_
  · rw [unit_attrs h] at ha
    cases ha
  · obtain ⟨p, hi, hp⟩ := exists_ready h harguments hplain i hi
    exact gapless_items ht hp i hi

end Unit

end Files

end Bindery.Emission
