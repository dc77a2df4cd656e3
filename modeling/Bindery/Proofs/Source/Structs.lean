import Bindery.Proofs.Source.Functions

/-!
# Structs, constants and implementations are read again

Items are read again whatever follows them, also as statements of a block.
-/
namespace Bindery.Source

open Bindery.Source.Parser Bindery.Source.Grammar

variable {g : Rules} {t : Ty} {name : Ident} {ts rest : List Token}

/-! Fields -/

/-- The rule for fields makes the field of its tokens. -/
structure FieldRereads (g : Rules) (f : Tree (.one .field)) : Prop where
  nonempty : f.tokens ≠ []
  reads : ∀ rest, endsType rest = true → Reads (namedField g) (f.tokens ++ rest) f rest

/-- A visibility in front of a name is read again. -/
def VisibilityRereads (vis : Visibility) : Prop :=
  ∀ name rest, Ident.isKeyword name = false →
    opAhead "#" (vis.tokens ++ .ident name :: rest) = false ∧
      Reads visibility (vis.tokens ++ .ident name :: rest) vis (.ident name :: rest)

theorem inherited_rereads : VisibilityRereads .inherited := fun name rest hname => by
  have hpub : wordAhead "pub" (.ident name :: rest) = false := by
    simpa using ne_of_not_keyword hname (w := "pub") (by decide)
  exact ⟨opAhead_ident _ _ _, reads_inherited hpub⟩

/-- What the whole crate may use. -/
theorem crate_rereads : VisibilityRereads (.within false (SimplePath.ofWord "crate")) := by
  refine fun name rest _ => ⟨opAhead_ident _ _ _, fun left => ?_⟩
  change visibility ⟨.word "pub" :: .group .paren [.word "crate"] :: .ident name :: rest, left⟩ = _
  have hpub : wordAhead "pub" (.word "pub" :: .group .paren [.word "crate"] :: .ident name ::
    rest) = true := rfl
  simp only [visibility, run_bind, run_word?, hpub, if_true, List.tail_cons]
  simp [Token.word, SimplePath.ofWord]

theorem fieldNamed_rereads {attrs : List Attribute}
    (hattrs : ∀ a ∈ attrs, AttributeRereads g false a)
    {vis : Visibility} (hvis : VisibilityRereads vis) (hname : Ident.isKeyword name = false)
    (ht : PlainRereads g t) : FieldRereads g (fieldNamed attrs vis name t) := by
  refine ⟨by simp [tokens_fieldNamed], fun rest hrest => ?_⟩
  have hunnamed := ne_of_not_keyword hname (w := "_") (by decide)
  have htype := ht.reads true rest hrest
  obtain ⟨hhash, hvis⟩ := hvis name (.punct ':' false :: (t.tokens ++ rest)) hname
  rw [tokens_fieldNamed]
  simp only [List.append_assoc, List.cons_append]
  refine (reads_outerAttributes hattrs hhash).bind (hvis.bind fun left => ?_)
  simp [hunnamed, hname, opAhead, opAhead.go, dropOp, fieldType, htype.run, fieldNamed]

theorem reads_namedFields {fields : List (Tree (.one .field))} (h : ∀ f ∈ fields, FieldRereads g f)
    (hne : fields ≠ []) (rest : List Token) : Reads (namedFields g)
      (.group .brace (commas true (fields.map Tree.tokens)) :: rest)
      (.namedFields (.ofList fields) true) rest := by
  have hlist : Reads (Parser.separated List.isEmpty "," (namedField g))
      (commas true (fields.map Tree.tokens) ++ []) (fields, true) [] :=
    reads_separated (fun ts => endsType ts = true) (fun f hf => (h f hf).reads)
      (fun f hf => ⟨(h f hf).nonempty, fun more => by simp [(h f hf).nonempty]⟩)
      (fun more => ⟨rfl, rfl⟩) ⟨rfl, rfl⟩ (fun _ => hne)
  rw [List.append_nil] at hlist
  exact (reads_delimited hlist .brace rest).bind (reads_pure _ _)

/-! Structs -/

theorem tokens_structOf_front (attrs : List Attribute) (vis : Visibility) (name : Ident)
    (generics : Tree (.maybe .params)) (fields : List (Tree (.one .field))) :
    (structOf attrs { vis } name generics fields).tokens =
      attrs.flatMap Tree.tokens ++ (vis.tokens ++ .word "struct" :: .ident name ::
        (after [] generics.tokens ++ [.group .brace (commas true (fields.map Tree.tokens))])) := by
  have htokens : (structOf attrs { vis } name generics fields).tokens =
      (Tree.ofList attrs).tokens.flatten ++ (vis.tokens ++ []) ++ [.word "struct", .ident name] ++
        after [] generics.tokens ++
        ([] ++ braced (commas true (Tree.ofList fields).tokens)) := rfl
  simp [htokens, braced, List.flatMap_def]

/-- No parameters stand in front of the fields. -/
theorem reads_noParams (inner rest : List Token) :
    Reads (params? g) (after [] (Tree.tokens (.absent : Tree (.maybe .params))) ++
      .group .brace inner :: rest) .absent (.group .brace inner :: rest) := fun left => by
  change params? g ⟨.group .brace inner :: rest, left⟩ = _
  simp [params?]

theorem structOf_rereads {attrs : List Attribute} (hattrs : ∀ a ∈ attrs, AttributeRereads g false a)
    {vis : Visibility} (hvis : vis = .inherited ∨ vis = .everywhere)
    (hname : Ident.isKeyword name = false) {generics : Tree (.maybe .params)}
    (hgenerics : ∀ inner rest, Reads (params? g)
      (after [] generics.tokens ++ .group .brace inner :: rest) generics
      (.group .brace inner :: rest))
    {fields : List (Tree (.one .field))} (h : ∀ f ∈ fields, FieldRereads g f) (hne : fields ≠ []) :
    ItemRereads g (structOf attrs { vis } name generics fields) := by
  intro rest
  have hfields := reads_namedFields h hne rest
  have hstruct : Reads (structItem g (.ofList attrs) { vis })
      (.word "struct" :: .ident name :: (after [] generics.tokens ++
        .group .brace (commas true (fields.map Tree.tokens)) :: rest))
      (structOf attrs { vis } name generics fields) rest := by
    intro left
    simp [structItem, hname, (hgenerics _ _).run, run_structBody, hfields.run, structOf]
  have hfront : ∀ ts, opAhead "#" (vis.tokens ++ .word "struct" :: ts) = false ∧
      Reads visibility (vis.tokens ++ .word "struct" :: ts) vis (.word "struct" :: ts) := by
    rcases hvis with rfl | rfl
    · exact fun ts => ⟨opAhead_word _ _ _, reads_inherited rfl⟩
    · exact fun ts => ⟨opAhead_word _ _ _, reads_everywhere rfl⟩
  rw [tokens_structOf_front]
  simp only [List.append_assoc, List.cons_append, List.nil_append]
  refine (reads_remaining _).bind ((reads_outerAttributes hattrs (hfront _).1).bind
    ((hfront _).2.bind (reads_itemOr ((reads_remaining _).bind fun left => ?_) _)))
  simp [signatureAhead, hstruct.run]

/-! Constants -/

theorem constItem_rereads {name : Ident} (hname : Ident.isKeyword name = false)
    (ht : PlainRereads g t) {e : Expr} (he : ExprRereads g e) :
    ItemRereads g (.constItem .nil {} name t (.present e)) := by
  intro rest
  have htokens : Tree.tokens (.constItem .nil {} name t (.present e)) ++ rest =
      .word "const" :: .ident name :: .punct ':' false ::
        (t.tokens ++ .punct '=' false :: (e.tokens ++ .punct ';' false :: rest)) := by
    change [] ++ [] ++ [.word "const", .ident name] ++ punct ':' ++ t.tokens ++
      (punct '=' ++ e.tokens) ++ punct ';' ++ rest = _
    simp [punct]
  have htype := ht.reads true (.punct '=' false :: (e.tokens ++ .punct ';' false :: rest)) rfl
  have hvalue := he.reads (.punct ';' false :: rest) rfl
  have hconst : Reads (constItem g .nil {}) (.word "const" :: .ident name :: .punct ':' false ::
      (t.tokens ++ .punct '=' false :: (e.tokens ++ .punct ';' false :: rest)))
      (some (.constItem .nil {} name t (.present e))) rest := by
    intro left
    simp [constItem, constName, constFrom, hname, params?, opAhead, opAhead.go, dropOp, htype.run,
      hvalue.run, rules?, Tree.isAbsent]
  rw [htokens]
  refine (reads_remaining _).bind ((reads_noOuter (by simp)).bind ((reads_inherited rfl).bind
    (reads_itemOr ((reads_remaining _).bind fun left => ?_) _)))
  have hne : ∀ w ∈ ["async", "unsafe", "extern", "fn"], name ≠ ⟨w, false⟩ :=
    fun w hw => ne_of_not_keyword hname (by revert w; decide)
  simp at hne
  simp [signatureAhead, hne, hconst.run]

/-! Implementations -/

theorem noInner_of_reads_member {i : Item} (h : Reads (implMember g) ts i rest) : NoInner ts := by
  refine Bool.eq_false_iff.2 fun hinner => ?_
  rw [Bool.and_eq_true] at hinner
  obtain ⟨hhash, hbang⟩ := hinner
  obtain ⟨c, joint, ts, rfl⟩ := exists_punct_of_opAhead hhash
  obtain rfl : '#' = c := by simpa [opAhead, opAhead.go] using hhash
  obtain ⟨c, joint, ts, rfl⟩ := exists_punct_of_opAhead hbang
  have h := h.run none
  unfold implMember outerAttributes many at h
  simp [upTo, hhash, delimited, dropOp, group, refuse] at h
  cases h

theorem implOf_rereads (ht : PlainRereads g t) (hstart : ∀ rest, StartsName (t.tokens ++ rest))
    {items : List Item} (h : ∀ i ∈ items, MemberRereads g i) : ItemRereads g (implOf t items) := by
  intro rest
  have hinner : NoInner (items.flatMap Tree.tokens) := by
    cases items with
    | nil => rfl
    | cons i others =>
      rw [List.flatMap_cons]
      exact noInner_of_reads_member ((h i (by simp)).reads _)
  have hmembers : Reads (membersOf g (implMember g))
      (.group .brace (items.flatMap Tree.tokens) :: rest) (.members .nil (.ofList items)) rest := by
    refine reads_delimited ?_ .brace rest
    exact (reads_noInner hinner).bind ((reads_manyToEnd (fun i hi => (h i hi).reads) fun i hi =>
      (h i hi).nonempty).bind (reads_pure _ _))
  have htype := ht.reads true (.group .brace (items.flatMap Tree.tokens) :: rest) rfl
  have hname := hstart (.group .brace (items.flatMap Tree.tokens) :: rest)
  have himpl : Reads (implItem g .nil .inherited)
      (.word "impl" :: (t.tokens ++ .group .brace (items.flatMap Tree.tokens) :: rest))
      (some (implOf t items)) rest := by
    intro left
    simp [implItem, hname.paramsAhead, hname.const, hname.op, htype.run, rules?, hmembers.run,
      implOf]
  rw [tokens_implOf]
  simp only [List.append_assoc, List.cons_append, List.nil_append]
  intro left
  rw [run_item_impl]
  exact reads_itemOr himpl _ left

end Bindery.Source
