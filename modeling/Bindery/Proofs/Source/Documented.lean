import Bindery.Proofs.Source.Alike
import Bindery.Proofs.Source.Attributes

/-!
# Documentation is skipped

Fields and functions with different documentation are read in step, and so are the structs and
implementations that hold them.
-/
namespace Bindery.Source

open Bindery.Source.Parser Bindery.Source.Grammar

variable {g : Rules}

/-! Fields -/

/-- Fields that differ in their documentation. -/
inductive SameField : Tree (.one .field) → Tree (.one .field) → Prop
  | of (lines lines' : List String) (vis : Visibility) (name : Ident) (t : Ty) :
    SameField (fieldNamed (docs lines) vis name t) (fieldNamed (docs lines') vis name t)

theorem tokens_fieldNamed (attrs : List Attribute) (vis : Visibility) (name : Ident) (t : Ty) :
    (fieldNamed attrs vis name t).tokens =
      attrs.flatMap Tree.tokens ++ vis.tokens ++ .ident name :: .punct ':' false :: t.tokens := by
  have htokens : (fieldNamed attrs vis name t).tokens =
      (Tree.ofList attrs).tokens.flatten ++ vis.tokens ++ nameTokens (some name) ++ t.tokens := rfl
  simp [htokens, nameTokens, punct, List.flatMap_def]

theorem inStep_field {name : Ident} (hname : Ident.isKeyword name = false) {t : Ty}
    (ht : Ends TypeEnd (g.type true) t.tokens) (lines lines' : List String) :
    InStep TypeEnd SameField (namedField g) (fieldNamed (docs lines) .inherited name t).tokens
      (fieldNamed (docs lines') .inherited name t).tokens where
  left_ne := by simp [tokens_fieldNamed]
  right_ne := by simp [tokens_fieldNamed]
  alike rest more hrest hmore := by
    have hunnamed : name ≠ ⟨"_", false⟩ := by
      rintro rfl
      revert hname
      decide
    have hpub : name ≠ ⟨"pub", false⟩ := by
      rintro rfl
      revert hname
      decide
    rw [tokens_fieldNamed, tokens_fieldNamed]
    simp only [Visibility.tokens, List.append_nil, List.append_assoc, List.cons_append]
    refine .after ?_ (reads_outerAttributes (docs_reread g lines) (by simp))
      (reads_outerAttributes (docs_reread g lines') (by simp))
    refine .after ?_ (reads_inherited (by simp [hpub])) (reads_inherited (by simp [hpub]))
    refine ((alike_of_ends ht hrest hmore).map (S := SameField)
      (g := fun t => fieldNamed (docs lines) .inherited name t)
      (k := fun t => fieldNamed (docs lines') .inherited name t) ?_).of_eq ?_ ?_
    · rintro t _ rfl
      exact .of lines lines' .inherited name t
    · intro left
      simp [hunnamed, hname, opAhead, opAhead.go, dropOp, fieldType, fieldNamed]
    · intro left
      simp [hunnamed, hname, opAhead, opAhead.go, dropOp, fieldType, fieldNamed]

/-! Functions -/

/-- Functions that differ in their documentation. -/
inductive SameFn : Item → Item → Prop
  | of (lines lines' : List String) (front : Front) (sig : Tree (.one .signature))
    (body : Tree (.maybe .block)) :
    SameFn (.fnItem (.ofList (docs lines)) front sig body)
      (.fnItem (.ofList (docs lines')) front sig body)

/-- The tokens of a signature of which only one flag may be set. -/
def signatureTokens (async : Bool) (name : Ident) (inputs output : List Token) : List Token :=
  flagWord async "async" ++ (.word "fn" :: .ident name :: .group .paren inputs ::
    (Token.operator "->" ++ output))

/-- The body of a function may begin. -/
def BodyAhead (ts : List Token) : Prop := groupAhead .brace ts = true

theorem exists_of_bodyAhead {ts : List Token} (h : BodyAhead ts) :
    ∃ inner rest, ts = .group .brace inner :: rest := by
  unfold BodyAhead groupAhead at h
  split at h
  · rename_i e inner rest
    obtain rfl : .brace = e := by simpa using h
    exact ⟨inner, rest, rfl⟩
  · cases h

theorem ends_ident (follow : List Token → Prop) (name : Ident) : Ends follow ident [.ident name] := by
  intro left
  cases hname : Ident.isKeyword name with
  | true => exact .inl ⟨.keyword name.word, fun rest _ => by simp [ident, hname]; rfl⟩
  | false => exact .inr ⟨name, left, fun rest _ => run_ident left hname rest⟩

theorem ends_returnType {output : List Token} (hout : Ends TypeEnd (g.type true) output) :
    Ends BodyAhead (returnType g true) (Token.operator "->" ++ output) := by
  have htype : Ends BodyAhead (g.type true) output := hout.mono fun rest hrest => by
    obtain ⟨inner, rest, rfl⟩ := exists_of_bodyAhead hrest
    rfl
  exact .after (x := true) (htype.bind_last fun _ => ends_pure) fun rest _ left => by
    rw [run_op?]
    rfl

theorem ends_signature (async : Bool) (name : Ident) (inputs : List Token) {output : List Token}
    (hout : Ends TypeEnd (g.type true) output) :
    Ends BodyAhead (signature g) (signatureTokens async name inputs output) := by
  have hrules : Ends BodyAhead (rules? g) [] := ends_of_reads (x := .absent) fun rest hrest => by
    obtain ⟨inner, rest, rfl⟩ := exists_of_bodyAhead hrest
    exact fun left => by simp [rules?]
  have htail : ∀ name, Ends BodyAhead (params? g >>= fun ps =>
      delimited .paren (do paramsFrom g ((← remaining).length + 1) [] false) >>= fun r =>
        returnType g true >>= fun output => rules? g >>= fun rs =>
          pure ((Tree.signature ⟨false, async, false, none⟩ name ps (.ofList r.1) r.2.1 r.2.2
            output rs), false)) (.group .paren inputs :: (Token.operator "->" ++ output)) := by
    intro name
    refine .after (x := .absent) ?_ fun rest _ left => by
      rw [params?, run_bind, run_op?]
      rfl
    change Ends BodyAhead _ ([.group .paren inputs] ++ (Token.operator "->" ++ output))
    exact (ends_delimited .paren _ inputs).bind
      (fun r => (ends_returnType hout).bind_last fun output => hrules.bind_last fun _ => ends_pure)
      fun _ _ => trivial
  have hname := (ends_ident (fun _ => True) name).bind htail fun _ _ => trivial
  have hfrom : Ends BodyAhead (signatureFrom g false)
      (signatureTokens async name inputs output) := by
    refine hname.of_eq fun rest left _ => ?_
    cases async <;>
      simp [signatureFrom, signatureTokens, flagWord, convention?]
  exact hfrom.bind_last fun _ => ends_pure

theorem tokens_publicFn (attrs : List Attribute) (async : Bool) (name : Ident)
    (inputs : List (Tree (.one .param))) (output : Ty) (stmts : List Stmt) :
    (publicFn attrs { async } name inputs output stmts).tokens =
      attrs.flatMap Tree.tokens ++ .word "pub" ::
        (signatureTokens async name (commas false (inputs.map Tree.tokens)) output.tokens ++
          [.group .brace (stmts.flatMap Tree.tokens)]) := by
  have htokens : (publicFn attrs { async } name inputs output stmts).tokens =
      (Tree.ofList attrs).tokens.flatten ++ publicFront.tokens ++
        (FnFlags.tokens { async } ++ [.word "fn", .ident name] ++ [] ++
          paramTokens (Tree.ofList inputs).tokens false none ++
          (Token.operator "->" ++ output.tokens) ++ []) ++
        braced ([] ++ (Tree.ofList stmts).tokens.flatten) := rfl
  simp [htokens, FnFlags.tokens, conventionTokens, signatureTokens, paramTokens, parenthesized,
    braced, flagWord, List.flatMap_def]

/-- Both runs yield something. -/
inductive BothSome {α α' : Type} (R : α → α' → Prop) : Option α → Option α' → Prop
  | of {x : α} {y : α'} (h : R x y) : BothSome R (some x) (some y)

theorem alike_itemOr {R : Item → Item → Prop} {p q : Parser (Option Item)}
    {ts rest us more : List Token} (h : Alike (BothSome R) p ts rest q us more)
    (start start' : List Token) : Alike R (itemOr start p) ts rest (itemOr start' q) us more :=
  h.bind fun _ _ ⟨hxy⟩ => alike_pure hxy

theorem alike_fnItem {sig : List Token} (hsig : Ends BodyAhead (signature g.above) sig)
    (lines lines' : List String) (front : Front) (body rest more : List Token) :
    Alike (BothSome SameFn) (fnItem g.above (.ofList (docs lines)) front)
      (sig ++ .group .brace body :: rest) rest (fnItem g.above (.ofList (docs lines')) front)
      (sig ++ .group .brace body :: more) more := by
  have hsig : Alike Eq (signature g.above) (sig ++ .group .brace body :: rest)
      (.group .brace body :: rest) (signature g.above) (sig ++ .group .brace body :: more)
      (.group .brace body :: more) := alike_of_ends hsig rfl rfl
  refine hsig.bind ?_
  rintro sig _ rfl
  have hbody : ∀ ts, Reads (op? ";") (.group .brace body :: ts) false (.group .brace body :: ts) :=
    fun ts left => by simp
  refine .after ?_ (hbody rest) (hbody more)
  have hblock : Ends (fun _ => True) (g.above.block true) [.group .brace body] :=
    ends_delimited .brace _ body
  refine (alike_of_ends hblock trivial trivial).bind ?_
  rintro content _ rfl
  exact alike_pure ⟨.of lines lines' front sig (.present content)⟩

theorem run_implMember_fn (lines : List String) {ts : List Token}
    (hpub : groupAhead .paren ts = false) (hdefault : defaultAhead ts = false)
    (hsig : signatureAhead false ts = true) (left : Option Delimiter) :
    implMember g ⟨(docs lines).flatMap Tree.tokens ++ .word "pub" :: ts, left⟩ =
      itemOr ((docs lines).flatMap Tree.tokens ++ .word "pub" :: ts)
        (fnItem g (.ofList (docs lines)) publicFront) ⟨ts, left⟩ := by
  rw [implMember, run_bind, run_remaining]
  dsimp only
  rw [run_bind, (reads_outerAttributes (docs_reread g lines) (by simp)).run]
  dsimp only
  rw [run_bind, (reads_everywhere hpub).run]
  simp [hdefault, itemOr, hsig, publicFront]

theorem signatureAhead_tokens (async : Bool) (name : Ident) (inputs output rest : List Token) :
    let ts := signatureTokens async name inputs output ++ rest
    groupAhead .paren ts = false ∧ defaultAhead ts = false ∧ signatureAhead false ts = true := by
  cases async <;> simp [signatureTokens, flagWord, defaultAhead, signatureAhead]

theorem inStep_fn (async : Bool) (name : Ident) (inputs : List (Tree (.one .param))) {output : Ty}
    (hout : Ends TypeEnd (g.above.type true) output.tokens) (stmts : List Stmt)
    (lines lines' : List String) : InStep (fun _ => True) SameFn (implMember g.above)
      (publicFn (docs lines) { async } name inputs output stmts).tokens
      (publicFn (docs lines') { async } name inputs output stmts).tokens where
  left_ne := by simp [tokens_publicFn]
  right_ne := by simp [tokens_publicFn]
  alike rest more _ _ := by
    have hsig := ends_signature async name (commas false (inputs.map Tree.tokens)) hout
    have hahead := signatureAhead_tokens async name (commas false (inputs.map Tree.tokens))
      output.tokens
    rw [tokens_publicFn, tokens_publicFn]
    simp only [List.append_assoc, List.cons_append, List.nil_append]
    exact (alike_itemOr (alike_fnItem hsig lines lines' publicFront _ rest more) _ _).of_eq
      (run_implMember_fn lines (hahead _).1 (hahead _).2.1 (hahead _).2.2)
      (run_implMember_fn lines' (hahead _).1 (hahead _).2.1 (hahead _).2.2)

/-! Implementations -/

/-- A type begins with a name. -/
structure StartsName (ts : List Token) : Prop where
  paramsAhead : paramsAhead ts = false
  const : wordAhead "const" ts = false
  op : ∀ op, opAhead op ts = false

theorem startsName_ident {name : Ident} (h : name ≠ ⟨"const", false⟩) (ts : List Token) :
    StartsName (.ident name :: ts) where
  paramsAhead := by simp [Grammar.paramsAhead]
  const := by simpa using h
  op op := opAhead_ident op ts name

/-- An implementation is read up to its members if its type is. -/
theorem alike_implItem {R : Tree (.one .members) → Tree (.one .members) → Prop}
    {ts members members' rest more : List Token} (hts : ∀ rest, StartsName (ts ++ rest))
    (htype : Ends TypeEnd (g.type true) ts)
    (hmembers : Alike R (membersOf g (implMember g)) (.group .brace members :: rest) rest
      (membersOf g (implMember g)) (.group .brace members' :: more) more)
    (attrs : Tree (.many .attr)) : Alike (BothSome fun i i' => ∃ t content content',
        R content content' ∧
        i = .implItem attrs {} false .absent false .absent t .absent content ∧
        i' = .implItem attrs {} false .absent false .absent t .absent content')
      (implItem g attrs .inherited) (.word "impl" :: (ts ++ .group .brace members :: rest)) rest
      (implItem g attrs .inherited) (.word "impl" :: (ts ++ .group .brace members' :: more)) more := by
  intro left
  have hstart := fun rest => hts rest
  have hopen : ∀ inner rest, TypeEnd (.group .brace inner :: rest) := fun _ _ => rfl
  rcases htype left with ⟨why, hwhy⟩ | ⟨t, left', ht⟩
  · have hrun : ∀ inner rest, implItem g attrs .inherited
        ⟨.word "impl" :: (ts ++ .group .brace inner :: rest), left⟩ = .error why :=
      fun inner rest => by
        have hstart := hts (.group .brace inner :: rest)
        simp [implItem, hstart.paramsAhead, hstart.const, hstart.op, hwhy _ (hopen inner rest)]
    exact .inl ⟨why, hrun _ _, hrun _ _⟩
  · have hrun : ∀ inner rest, implItem g attrs .inherited
        ⟨.word "impl" :: (ts ++ .group .brace inner :: rest), left⟩ =
          ((fun content =>
            some (Tree.implItem attrs {} false .absent false .absent t .absent content)) <$>
              membersOf g (implMember g)) ⟨.group .brace inner :: rest, left'⟩ :=
      fun inner rest => by
        have hstart := hts (.group .brace inner :: rest)
        simp [implItem, hstart.paramsAhead, hstart.const, hstart.op, ht _ (hopen inner rest), rules?]
    rw [hrun, hrun]
    exact hmembers.map (fun content content' hR => ⟨t, content, content', hR, rfl, rfl⟩) left'

theorem run_item_impl (ts : List Token) (left : Option Delimiter) :
    Grammar.item g ⟨.word "impl" :: ts, left⟩ =
      itemOr (.word "impl" :: ts) (implItem g .nil .inherited) ⟨.word "impl" :: ts, left⟩ := by
  have hattrs : Reads (outerAttributes g) (.word "impl" :: ts) .nil (.word "impl" :: ts) :=
    reads_noOuter (by simp)
  have hvis : Reads visibility (.word "impl" :: ts) .inherited (.word "impl" :: ts) :=
    reads_inherited (by simp)
  rw [Grammar.item, run_bind, run_remaining]
  dsimp only
  rw [run_bind, hattrs.run]
  dsimp only
  rw [run_bind, hvis.run]
  simp [itemOr, signatureAhead]

/-- Items that differ in the documentation of their fields and functions. -/
inductive SameItem : Item → Item → Prop
  | refl (i : Item) : SameItem i i
  | structItem {fields fields' : List (Tree (.one .field))} (h : List.Forall₂ SameField fields fields')
    (attrs : Tree (.many .attr)) (front : Front) (name : Ident) (ps : Tree (.maybe .params))
    (trailing : Bool) (rs : Tree (.maybe .rules)) :
    SameItem (.structItem attrs front name ps (.namedFields (.ofList fields) trailing) rs)
      (.structItem attrs front name ps (.namedFields (.ofList fields') trailing) rs)
  | implItem {fns fns' : List Item} (h : List.Forall₂ SameFn fns fns') (attrs : Tree (.many .attr))
    (t : Ty) :
    SameItem (.implItem attrs {} false .absent false .absent t .absent (.members .nil (.ofList fns)))
      (.implItem attrs {} false .absent false .absent t .absent (.members .nil (.ofList fns')))

theorem tokens_implOf (t : Ty) (items : List Item) : (implOf t items).tokens =
    .word "impl" :: (t.tokens ++ [.group .brace (items.flatMap Tree.tokens)]) := by
  have htokens : (implOf t items).tokens = [] ++ ({} : Front).tokens ++ flagWord false "unsafe" ++
      [.word "impl"] ++ [] ++ [] ++ [] ++ t.tokens ++ [] ++
      braced ([] ++ (Tree.ofList items).tokens.flatten) := rfl
  simp [htokens, flagWord, Front.tokens, Visibility.tokens, braced, List.flatMap_def]

/-- An implementation is read in step if its members are. -/
theorem inStep_implOf {t : Ty} (hts : ∀ rest, StartsName (t.tokens ++ rest))
    (htype : Ends TypeEnd (g.type true) t.tokens) {items items' : List Item}
    {R : Tree (.one .members) → Tree (.one .members) → Prop}
    (hmembers : ∀ rest more, Alike R
      (membersOf g (implMember g)) (.group .brace (items.flatMap Tree.tokens) :: rest) rest
      (membersOf g (implMember g)) (.group .brace (items'.flatMap Tree.tokens) :: more) more)
    (hsame : ∀ attrs t content content', R content content' →
      SameItem (.implItem attrs {} false .absent false .absent t .absent content)
        (.implItem attrs {} false .absent false .absent t .absent content')) :
    InStep (fun _ => True) SameItem (Grammar.item g) (implOf t items).tokens
      (implOf t items').tokens where
  left_ne := by simp [tokens_implOf]
  right_ne := by simp [tokens_implOf]
  alike rest more _ _ := by
    rw [tokens_implOf, tokens_implOf]
    simp only [List.append_assoc, List.cons_append, List.nil_append]
    refine ((alike_itemOr (alike_implItem hts htype (hmembers rest more) .nil) _ _).mono ?_).of_eq
      (run_item_impl _) (run_item_impl _)
    rintro _ _ ⟨t, content, content', hR, rfl, rfl⟩
    exact hsame .nil t content content' hR

/-- An implementation with the same functions in both runs. -/
theorem inStep_implOf_same {t : Ty} (hts : ∀ rest, StartsName (t.tokens ++ rest))
    (htype : Ends TypeEnd (g.type true) t.tokens) (items : List Item) :
    InStep (fun _ => True) SameItem (Grammar.item g) (implOf t items).tokens
      (implOf t items).tokens :=
  inStep_implOf hts htype (fun _ _ => alike_of_ends (ends_delimited .brace _ _) trivial trivial) (by
    rintro attrs t content _ rfl
    exact .refl _)

/-- An implementation whose functions differ in their documentation. -/
theorem inStep_implOf_fns {t : Ty} (hts : ∀ rest, StartsName (t.tokens ++ rest))
    (htype : Ends TypeEnd (g.type true) t.tokens) {fns fns' : List Item}
    (hinner : NoInner (fns.flatMap Tree.tokens)) (hinner' : NoInner (fns'.flatMap Tree.tokens))
    (hfns : List.Forall₂ (InStep (fun _ => True) SameFn (implMember g)) (fns.map Tree.tokens)
      (fns'.map Tree.tokens)) :
    InStep (fun _ => True) SameItem (Grammar.item g) (implOf t fns).tokens
      (implOf t fns').tokens := by
  refine inStep_implOf (R := fun m m' => ∃ xs xs', List.Forall₂ SameFn xs xs' ∧
    m = .members .nil (.ofList xs) ∧ m' = .members .nil (.ofList xs')) hts htype
    (fun rest more => .delimited ?_ .brace rest more) ?_
  · refine .after ?_ (reads_noInner hinner) (reads_noInner hinner')
    exact (alike_manyToEnd hfns).bind fun xs xs' hall => alike_pure ⟨xs, xs', hall, rfl, rfl⟩
  · rintro attrs t _ _ ⟨xs, xs', hall, rfl, rfl⟩
    exact .implItem hall attrs t

/-! Structs -/

theorem tokens_structOf (attrs : List Attribute) (name : Ident) (generics : Tree (.maybe .params))
    (fields : List (Tree (.one .field))) : (structOf attrs publicFront name generics fields).tokens =
      attrs.flatMap Tree.tokens ++ .word "pub" :: .word "struct" :: .ident name ::
        (after [] generics.tokens ++ [.group .brace (commas true (fields.map Tree.tokens))]) := by
  have htokens : (structOf attrs publicFront name generics fields).tokens =
      (Tree.ofList attrs).tokens.flatten ++ publicFront.tokens ++ [.word "struct", .ident name] ++
        after [] generics.tokens ++
        ([] ++ braced (commas true (Tree.ofList fields).tokens)) := rfl
  simp [htokens, braced, List.flatMap_def]

/-- The parameters of a struct that borrows. -/
def borrowing (lifetime : Ident) : Tree (.maybe .params) :=
  .present (.params (.cons (.lifetimeParam .nil lifetime {}) .nil) false)

theorem reads_lifetimeParam (lifetime : Ident) (rest : List Token) (hrest : opAhead ":" rest = false) :
    Reads (itemParam g) (.punct '\'' true :: .ident lifetime :: rest) (.lifetimeParam .nil lifetime {})
      rest := by
  have hattrs : Reads (outerAttributes g) (.punct '\'' true :: .ident lifetime :: rest) .nil
      (.punct '\'' true :: .ident lifetime :: rest) := reads_noOuter (by simp [opAhead, opAhead.go])
  have hahead : lifetimeAhead (.punct '\'' true :: .ident lifetime :: rest) = true := rfl
  refine hattrs.bind ?_
  simp [Reads, hahead, lifetimeParam, lifetimeBounds, hrest]

theorem reads_borrowing (lifetime : Ident) (rest : List Token) :
    Reads (params? g) (after [] (borrowing lifetime).tokens ++ rest) (borrowing lifetime) rest := by
  have htokens : after [] (borrowing lifetime).tokens ++ rest = .punct '<' false :: .punct '\'' true ::
    .ident lifetime :: .punct '>' false :: rest := rfl
  have hangled : Reads (angled (itemParam g)) (.punct '\'' true :: .ident lifetime ::
      .punct '>' false :: rest) ([.lifetimeParam .nil lifetime {}], false) (.punct '>' false :: rest) := by
    intro left
    have hparam := reads_lifetimeParam (g := g) lifetime (.punct '>' false :: rest)
      (by simp [opAhead, opAhead.go])
    simp [angled, Parser.separated, separatedFrom, opAhead, opAhead.go, hparam.run]
  rw [htokens]
  intro left
  simp [params?, opAhead, opAhead.go, dropOp, hangled.run, borrowing, Tree.ofList]

theorem run_structBody (inner rest : List Token) (left : Option Delimiter) :
    structBody g ⟨.group .brace inner :: rest, left⟩ =
      ((·, .absent) <$> namedFields g) ⟨.group .brace inner :: rest, left⟩ := by
  simp [structBody, rules?]

theorem alike_structBody {fields fields' : List (List Token)}
    (h : List.Forall₂ (InStep TypeEnd SameField (namedField g)) fields fields')
    (rest more : List Token) : Alike (fun r r' => ∃ xs xs' trailing, List.Forall₂ SameField xs xs' ∧
        r = (.namedFields (.ofList xs) trailing, .absent) ∧
        r' = (.namedFields (.ofList xs') trailing, .absent))
      (structBody g) (.group .brace (commas true fields) :: rest) rest
      (structBody g) (.group .brace (commas true fields') :: more) more := by
  have hlisted := (alike_listed (fun _ => rfl) h).delimited .brace rest more
  have hfields : Alike (fun f f' => ∃ xs xs' trailing, List.Forall₂ SameField xs xs' ∧
        f = .namedFields (.ofList xs) trailing ∧ f' = .namedFields (.ofList xs') trailing)
      (namedFields g) (.group .brace (commas true fields) :: rest) rest
      (namedFields g) (.group .brace (commas true fields') :: more) more := by
    refine hlisted.bind ?_
    rintro ⟨xs, trailing⟩ ⟨xs', _⟩ ⟨hall, rfl⟩
    exact alike_pure ⟨xs, xs', trailing, hall, rfl, rfl⟩
  refine (hfields.map ?_).of_eq (run_structBody _ rest) (run_structBody _ more)
  rintro _ _ ⟨xs, xs', trailing, hall, rfl, rfl⟩
  exact ⟨xs, xs', trailing, hall, rfl, rfl⟩

/-- A struct that borrows is read in step if its fields are. -/
theorem alike_structItem {fields fields' : List (List Token)}
    (h : List.Forall₂ (InStep TypeEnd SameField (namedField g)) fields fields')
    (attrs : Tree (.many .attr)) (name lifetime : Ident) (rest more : List Token) :
    Alike SameItem
      (structItem g attrs publicFront) (.word "struct" :: .ident name ::
        (after [] (borrowing lifetime).tokens ++ .group .brace (commas true fields) :: rest)) rest
      (structItem g attrs publicFront) (.word "struct" :: .ident name ::
        (after [] (borrowing lifetime).tokens ++ .group .brace (commas true fields') :: more))
        more := by
  have hword : ∀ ts, Reads (word "struct") (.word "struct" :: ts) () ts := fun ts left => by simp
  refine .after ?_ (hword _) (hword _)
  refine (alike_of_ends (ends_ident (fun _ => True) name) trivial trivial).bind ?_
  rintro name _ rfl
  refine .after ?_ (reads_borrowing lifetime _) (reads_borrowing lifetime _)
  refine (alike_structBody h rest more).bind ?_
  rintro _ _ ⟨xs, xs', trailing, hall, rfl, rfl⟩
  exact alike_pure (.structItem hall attrs publicFront name _ trailing .absent)

theorem run_item_struct {attrs : List Attribute} (hattrs : ∀ a ∈ attrs, AttributeRereads g false a)
    (ts : List Token) (left : Option Delimiter) :
    Grammar.item g ⟨attrs.flatMap Tree.tokens ++ .word "pub" :: .word "struct" :: ts, left⟩ =
      itemOr (attrs.flatMap Tree.tokens ++ .word "pub" :: .word "struct" :: ts)
        (some <$> structItem g (.ofList attrs) publicFront) ⟨.word "struct" :: ts, left⟩ := by
  rw [Grammar.item, run_bind, run_remaining]
  dsimp only
  rw [run_bind, (reads_outerAttributes hattrs (by simp)).run]
  dsimp only
  rw [run_bind, (reads_everywhere (by simp)).run]
  simp [itemOr, signatureAhead, publicFront]

theorem inStep_structOf {attrs : List Attribute} (hattrs : ∀ a ∈ attrs, AttributeRereads g false a)
    (name lifetime : Ident) {fields fields' : List (Tree (.one .field))}
    (hfields : List.Forall₂ (InStep TypeEnd SameField (namedField g)) (fields.map Tree.tokens)
      (fields'.map Tree.tokens)) :
    InStep (fun _ => True) SameItem (Grammar.item g)
      (structOf attrs publicFront name (borrowing lifetime) fields).tokens
      (structOf attrs publicFront name (borrowing lifetime) fields').tokens where
  left_ne := by simp [tokens_structOf]
  right_ne := by simp [tokens_structOf]
  alike rest more _ _ := by
    rw [tokens_structOf, tokens_structOf]
    simp only [List.append_assoc, List.cons_append, List.nil_append]
    have hstruct := alike_structItem hfields (.ofList attrs) name lifetime rest more
    exact (alike_itemOr (hstruct.map fun _ _ h => .of h) _ _).of_eq (run_item_struct hattrs _)
      (run_item_struct hattrs _)

end Bindery.Source
