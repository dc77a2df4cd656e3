import Bindery.Proofs.Source.Operands

/-!
# Values are read again

The operands that emitted code begins expressions with: names, literals, structs, closures, and what
the word `return` begins.
-/
namespace Bindery.Source

open Bindery.Source.Parser Bindery.Source.Grammar

variable {g : Rules} {structs : Bool} {e : Expr} {ts rest : List Token}

/-! Names -/

/-- A name that may stand in a path. -/
def isSegmentName (name : Ident) : Bool :=
  isPlaceWord name || name == ⟨"Self", false⟩ || !Ident.isKeyword name

theorem isSegmentName_of_not_keyword {name : Ident} (h : Ident.isKeyword name = false) :
    isSegmentName name = true := by
  simp [isSegmentName, h]

/-- A path of names alone, as values have. -/
inductive IsNames : Path → Prop
  | of (rooted : Bool) (first : Ident) (others : List Ident)
    (h : ∀ name ∈ first :: others, isSegmentName name = true)
    (hstart : rooted = false → first ≠ ⟨"try", false⟩) :
    IsNames (.path rooted (.ofList ((first :: others).map segmentOf)))

theorem isNames_name {name : Ident} (h : Ident.isKeyword name = false) :
    IsNames (.path false (.ofList [segmentOf name])) :=
  .of false name [] (by simpa using isSegmentName_of_not_keyword h) fun _ =>
    ne_of_not_keyword h (by decide)

theorem isNames_word {w : String} (h : Ident.isKeyword (plain w) = false) :
    IsNames (wordPath [w]) := isNames_name h

theorem isNames_self : IsNames (wordPath ["self"]) :=
  .of false (plain "self") [] (by decide) (by decide)

theorem exists_names_of_simple? {p : Path} {names : SimplePath} (h : simple? p = some names) :
    ∃ rooted words, p = .path rooted (.ofList (List.map segmentOf words)) := by
  match p with
  | .path rooted segments =>
    rw [simple?, Option.bind_eq_bind, Option.bind_eq_some_iff] at h
    obtain ⟨words, hwords, -⟩ := h
    rw [← segments.ofList_toList]
    refine ⟨rooted, words, congrArg (Tree.path rooted ∘ Tree.ofList) ?_⟩
    generalize segments.toList = xs at hwords
    induction xs generalizing words with
    | nil =>
      obtain rfl : words = [] := by simpa using hwords
      rfl
    | cons x xs ih =>
      simp only [List.mapM_cons, Option.bind_eq_bind, Option.bind_eq_some_iff, Option.pure_def,
        Option.some.injEq] at hwords
      obtain ⟨word, hword, others, hothers, rfl⟩ := hwords
      have hx : x = segmentOf word := by
        split at hword
        · cases hword
          rfl
        · cases hword
      rw [hx, ih others hothers]
      rfl

/-- A plain path without arguments is one of names. -/
theorem isNames_of_simple? {p : Path} (hp : p.isPlain = true) {names : SimplePath}
    (h : simple? p = some names) : IsNames p := by
  obtain ⟨rooted, words, rfl⟩ := exists_names_of_simple? h
  obtain ⟨rooted', first, others, heq, hsegments, hopens⟩ := exists_segments hp
  obtain ⟨rfl, hlist⟩ := Tree.path.inj heq
  have hwords : words.map segmentOf = first :: others := by
    simpa only [Tree.toList_ofList] using congrArg Tree.toList hlist
  match words, hwords with
  | word :: words, hwords =>
    rw [← hwords] at hsegments hopens
    refine .of rooted word words (fun name hname => ?_) fun hrooted => ?_
    · exact hsegments (segmentOf name) (List.mem_map_of_mem hname)
    · have hword : (word != ⟨"try", false⟩) = true := hopens hrooted
      simpa using hword

namespace IsNames

variable {p : Path}

theorem plain (h : IsNames p) : p.isPlain = true := by
  obtain ⟨rooted, first, others, h, hstart⟩ := h
  have hsegments : Tree.isPlain (.ofList ((first :: others).map segmentOf)) = true := by
    refine Tree.isPlain_ofList.2 fun s hs => ?_
    obtain ⟨name, hname, rfl⟩ := List.mem_map.1 hs
    exact h name hname
  change (Tree.isPlain (.ofList ((first :: others).map segmentOf)) &&
    (if rooted then true else first != ⟨"try", false⟩)) = true
  rw [hsegments]
  cases rooted with
  | true => rfl
  | false => simpa using hstart rfl

/-- What a path of names has under some words. -/
theorem within (h : IsNames p) {words : List String}
    (hwords : ∀ w ∈ words, Ident.isKeyword (Source.plain w) = false) :
    IsNames (within p words) := by
  obtain ⟨rooted, first, others, h, hstart⟩ := h
  have hpath : Source.within (.path rooted (.ofList ((first :: others).map segmentOf))) words =
      .path rooted (.ofList ((first :: (others ++ words.map Source.plain)).map segmentOf)) := by
    simp [Source.within, extend, Function.comp_def]
  rw [hpath]
  refine .of rooted first _ (fun name hname => ?_) hstart
  rw [← List.cons_append, List.mem_append, List.mem_map] at hname
  rcases hname with hname | ⟨w, hw, rfl⟩
  · exact h name hname
  · exact isSegmentName_of_not_keyword (hwords w hw)

/-- The tokens begin with a name, or with the mark of the root. -/
theorem tokens_eq (h : IsNames p) : ∃ (rooted : Bool) (name : Ident)
    (others : List (Tree (.one .segment))), p.tokens =
      (if rooted then Token.operator "::" else []) ++
        .ident name :: others.flatMap (Token.operator "::" ++ ·.tokens) := by
  obtain ⟨rooted, first, others, -, -⟩ := h
  refine ⟨rooted, first, others.map segmentOf, ?_⟩
  rw [Tree.tokens_path, Tree.tokens_ofList, List.map_cons, List.map_cons, separated_cons,
    List.flatMap_map]
  rfl

theorem reads_path (h : IsNames p) (inExpr : Bool) (hrest : EndsSegment rest)
    (hcolons : opAhead "::" rest = false) : Reads (path g inExpr) (p.tokens ++ rest) p rest := by
  obtain ⟨rooted, first, others, h, -⟩ := h
  refine Source.reads_path inExpr rooted (fun s hs rest hrest => ?_) hrest hcolons
  obtain ⟨name, hname, rfl⟩ := List.mem_map.1 (List.map_cons ▸ hs)
  exact reads_bareSegment inExpr (h name hname) hrest

theorem reads_place (h : IsNames p) (hrest : EndsSegment rest)
    (hcolons : opAhead "::" rest = false) :
    Reads (place g true) (p.tokens ++ rest) (.plainPlace p) rest := by
  have hangle := (startsPath_tokens h.plain rest).op "<" (by simp)
  simp [Reads, place, hangle, (h.reads_path true hrest hcolons).run]

end IsNames

/-- Nothing behind a path belongs to it. -/
theorem endsSegment_of_endsAt {marks : List Char} {kinds : List Delimiter}
    (h : endsAt marks kinds ts = true) (hmarks : ∀ c ∈ marks, c ≠ '<' ∧ c ≠ ':') :
    EndsSegment ts := by
  have hcolons := opAhead_of_endsAt h "::" fun c hc => by
    simpa using fun h => (hmarks c hc).2 h.symm
  refine ⟨opAhead_of_endsAt h "<" fun c hc => by simpa using fun h => (hmarks c hc).1 h.symm, ?_⟩
  rw [hcolons]
  exact fun h => absurd h Bool.false_ne_true

/-- An operand that begins with a path is read by the rule for paths. -/
theorem atom_names {p : Path} (h : IsNames p) (hhash : opAhead "#" rest = false)
    (left : Option Delimiter) :
    atom g structs ⟨p.tokens ++ rest, left⟩ = placeExpr g structs ⟨p.tokens ++ rest, left⟩ := by
  have hstart : startsType (p.tokens ++ rest) = true :=
    startsType_tokens (t := .pathType (.plainPlace p)) h.plain rest
  have hpath := startsPath_tokens h.plain rest
  have hword := fun w hw => wordAhead_of_startsType hstart (w := w) hw
  have hbehind : opAhead "#" (pastTree (p.tokens ++ rest)) = false := by
    obtain ⟨rooted, name, others, htokens⟩ := h.tokens_eq
    rw [htokens]
    cases rooted with
    | true => simp [Token.operator_colons, pastTree, opAhead, opAhead.go]
    | false =>
      cases others with
      | nil => simpa [pastTree] using hhash
      | cons s others => simp [Token.operator_colons, pastTree, opAhead, opAhead.go]
  have hstrange : strangeAtom? g ⟨p.tokens ++ rest, left⟩ = .ok
      (none, ⟨p.tokens ++ rest, left⟩) := by
    simp [strangeAtom?, hbehind, hword "become" (by decide)]
  have hclosure : closureAhead (p.tokens ++ rest) = false := by
    simp [closureAhead, bindsAhead, hpath.op "|" (by simp), hword "move" (by decide),
      hword "for" (by decide), hword "const" (by decide), hword "static" (by decide),
      hword "async" (by decide)]
  simp [atom, literalAhead_of_startsType hstart, asyncBlockAhead, hword "async" (by decide),
    hclosure, hstrange, valuePathAhead, hpath.starts]

theorem unsigned_names {p : Path} (h : IsNames p) :
    ∀ op ∈ ["#", "&", "*", "!", "-"], opAhead op (p.tokens ++ rest) = false := by
  have hall : ∀ op ∈ ["#", "&", "*", "!", "-"], op.toList.head? ≠ some ':' := by decide
  exact fun op hop => (startsPath_tokens h.plain rest).op op (hall op hop)

theorem operand_names {p : Path} (h : IsNames p) :
    OperandRereads g structs (endsNames · = true) (pathExpr p) where
  dot _ := rfl
  question _ := rfl
  value _ := endsNames_of_endsValue
  reads rest hrest := by
    have hsegment := endsSegment_of_endsAt hrest (by simp)
    have hcolons := opAhead_of_endsAt hrest "::" (by simp)
    have hbang : bangAhead rest = false := by
      simp [bangAhead, opAhead_of_endsAt hrest "!" (by simp)]
    have hbrace := groupAhead_of_endsAt hrest (d := .brace) (by decide)
    have hhash := opAhead_of_endsAt hrest "#" (by simp)
    refine operand_of_atom rfl (unsigned_names h) fun left => ?_
    change atom g structs ⟨p.tokens ++ rest, left⟩ = _
    rw [atom_names h hhash]
    have hplace := h.reads_place (g := g) hsegment hcolons
    cases hsimple : simplePlace? (.plainPlace p) with
    | none => simp [placeExpr, hplace.run, hsimple, hbang, hbrace, pathExpr]
    | some names => simp [placeExpr, hplace.run, hsimple, hbang, hbrace, pathExpr]

theorem operand_name {name : Ident} (h : Ident.isKeyword name = false) :
    OperandRereads g structs (endsNames · = true) (nameExpr name) := operand_names (isNames_name h)

theorem operand_word {w : String} (h : Ident.isKeyword (plain w) = false) :
    OperandRereads g structs (endsNames · = true) (wordExpr w) := operand_name h

theorem operand_selfField {name : Ident} (h : Ident.isKeyword name = false) :
    OperandRereads g structs EndsField (selfField name) :=
  (operand_names isNames_self).field h

/-! Literals -/

theorem operand_literal {text : String} (h : Literal.tokens text = [.literal text]) :
    OperandRereads g structs Closed (.literalExpr text) := .closed fun rest => by
  have htokens : Tree.tokens (.literalExpr text) ++ rest = .literal text :: rest := by
    change Literal.tokens text ++ rest = _
    rw [h]
    rfl
  rw [htokens]
  refine operand_of_atom rfl (fun op _ => opAhead_literal op rest text) fun left => ?_
  simp [atom, literalAhead]

theorem operand_text (text : String) : OperandRereads g structs Closed (textExpr text) :=
  operand_literal (Literal.tokens_quote text)

theorem operand_false : OperandRereads g structs Closed (.literalExpr "false") :=
  .closed fun rest => operand_of_atom rfl (fun op _ => opAhead_word op rest "false") fun _ => rfl

theorem operand_unit : OperandRereads g structs Closed (.tupleExpr .nil false) :=
  .closed fun rest => by
    have hnone : Reads (listed (g.expr true)) [] ([], false) [] := fun _ => rfl
    have hparen : Reads (parenExpr g) (.group .paren [] :: rest) (.tupleExpr .nil false) rest :=
      (reads_delimited hnone .paren rest).bind (reads_pure _ _)
    refine operand_of_atom rfl (fun op _ => opAhead_group op rest .paren []) fun left => ?_
    change atom g structs ⟨.group .paren [] :: rest, left⟩ = _
    simp [atom, literalAhead, asyncBlockAhead, closureAhead, bindsAhead, strangeAtom?,
      valuePathAhead, pathStarts, hparen.run]

/-! Structs -/

/-- A field of a struct expression is read again. -/
structure FieldValueRereads (g : Rules) (f : Tree (.one .fieldValue)) : Prop where
  named : ∃ name ts, f.tokens = .ident name :: ts
  reads : ∀ rest, endsValue rest = true → Reads (fieldValue g) (f.tokens ++ rest) f rest

section Fields

variable {name : Ident} (hname : Ident.isKeyword name = false)
include hname

theorem reads_fieldMember (rest : List Token) (left : Option Delimiter) :
    fieldValue g ⟨.ident name :: rest, left⟩ =
      (do if ← op? ":" then return .fieldValue .nil (.name name) (.present (← g.expr true))
          else return .fieldValue .nil (.name name) .absent : Parser _) ⟨rest, left⟩ := by
  have hnone : Reads (outerAttributes g) (.ident name :: rest) .nil (.ident name :: rest) :=
    reads_noOuter (by simp)
  rw [fieldValue, run_bind, hnone.run]
  simp [member, hname]

theorem setField_rereads (h : ExprRereads g e) : FieldValueRereads g (setField name e) := by
  refine ⟨⟨name, .punct ':' false :: e.tokens, rfl⟩, fun rest hrest left => ?_⟩
  change fieldValue g ⟨.ident name :: .punct ':' false :: (e.tokens ++ rest), left⟩ = _
  rw [reads_fieldMember hname]
  simp [opAhead, opAhead.go, dropOp, (h.reads rest hrest).run, setField]

theorem sameField_rereads : FieldValueRereads g (sameField name) := by
  refine ⟨⟨name, [], rfl⟩, fun rest hrest left => ?_⟩
  change fieldValue g ⟨.ident name :: rest, left⟩ = _
  have hcolon := opAhead_of_endsAt hrest ":" (by simp)
  rw [reads_fieldMember hname]
  simp [hcolon, sameField]

end Fields

/-- The fields of a struct, with a comma behind each. -/
theorem reads_fieldValues {fields : List (Tree (.one .fieldValue))}
    (h : ∀ f ∈ fields, FieldValueRereads g f) {n : Nat} (hn : fields.length < n) (before : Bool) :
    Reads (fieldValues g n before) (commas true (fields.map Tree.tokens))
      (fields, before || !fields.isEmpty, false, .absent) [] := by
  induction fields generalizing n before with
  | nil =>
    obtain ⟨n, rfl⟩ : ∃ k, n = k + 1 := ⟨n - 1, by simp at hn; omega⟩
    intro left
    simp [fieldValues, commas, separated]
  | cons f others ih =>
    obtain ⟨n, rfl⟩ : ∃ k, n = k + 1 := ⟨n - 1, by simp at hn; omega⟩
    obtain ⟨hf, hothers⟩ := List.forall_mem_cons.1 h
    have hrest := ih hothers (n := n) (by simpa using hn) true
    obtain ⟨name, ts, htokens⟩ := hf.named
    have hfield := hf.reads (.punct ',' false :: commas true (others.map Tree.tokens)) rfl
    rw [List.map_cons, commas_cons (.inr rfl)]
    rw [htokens] at hfield ⊢
    rw [List.cons_append] at hfield ⊢
    intro left
    simp only [fieldValues, run_bind, run_atEnd, List.isEmpty_cons, run_ite, Bool.false_eq_true,
      if_false, run_op?, opAhead_ident, hfield.run]
    simp [opAhead, opAhead.go, dropOp, hrest.run]

/-- A struct with a comma behind each field. -/
def structOfFields (p : Path) (fields : List (Tree (.one .fieldValue))) : Expr :=
  .structExpr (.plainPlace p) (.ofList fields) true false .absent

theorem operand_struct {p : Path} (h : IsNames p) {fields : List (Tree (.one .fieldValue))}
    (hne : fields ≠ []) (hfields : ∀ f ∈ fields, FieldValueRereads g f) :
    OperandRereads g true Closed (structOfFields p fields) := .closed fun rest => by
  have htokens : (structOfFields p fields).tokens ++ rest =
      p.tokens ++ .group .brace (commas true (fields.map Tree.tokens)) :: rest := by
    change p.tokens ++ braced (commas (true || false) (Tree.ofList fields).tokens ++ [] ++ []) ++
      rest = _
    simp [braced]
  have hlength : fields.length < (commas true (fields.map Tree.tokens)).length + 1 := by
    have hle : fields.length ≤ (commas true (fields.map Tree.tokens)).length :=
      length_le_length_commas (fun f hf => by
        obtain ⟨name, ts, htokens⟩ := (hfields f hf).named
        simp [htokens]) true
    omega
  have hinner : Reads (do fieldValues g ((← remaining).length + 1) false)
      (commas true (fields.map Tree.tokens)) (fields, true, false, .absent) [] := by
    have hread := reads_fieldValues hfields hlength false
    simp only [Bool.false_or, List.isEmpty_eq_false_iff.2 hne, Bool.not_false] at hread
    exact (reads_remaining _).bind hread
  have hplace : Reads (place g true)
      (p.tokens ++ .group .brace (commas true (fields.map Tree.tokens)) :: rest) (.plainPlace p)
      (.group .brace (commas true (fields.map Tree.tokens)) :: rest) :=
    h.reads_place ⟨by simp, by simp⟩ (by simp)
  rw [htokens]
  refine operand_of_atom rfl (unsigned_names h) fun left => ?_
  rw [atom_names h (by simp)]
  have hbody := reads_delimited hinner .brace rest
  cases hsimple : simplePlace? (.plainPlace p) with
  | none => simp [placeExpr, hplace.run, hsimple, bangAhead, hbody.run, structOfFields]
  | some names => simp [placeExpr, hplace.run, hsimple, bangAhead, hbody.run, structOfFields]

/-! Patterns -/

/-- What follows a pattern: the mark of a value or of a type, or the bar that ends parameters. -/
structure EndsPat (ts : List Token) : Prop where
  op : ∀ op ∈ ["::", "!", "..", "@"], opAhead op ts = false
  brace : groupAhead .brace ts = false
  paren : groupAhead .paren ts = false

/-- A pattern is read again in front of what may follow it. -/
def PatRereads (g : Rules) (p : Pat) : Prop :=
  ∀ bars rest, EndsPat rest → (bars = true → barAhead rest = false) →
    Reads (g.pat bars) (p.tokens ++ rest) p rest

/-- A single pattern is read by the rule for several. -/
theorem patRereads_single {p : Pat} (hbar : ∀ ts, opAhead "|" (p.tokens ++ ts) = false)
    (h : ∀ rest, EndsPat rest → Reads (singlePat g) (p.tokens ++ rest) p rest) :
    PatRereads g.above p := by
  intro bars rest hends hbars
  have hread := h rest hends
  cases bars with
  | false => exact fun left => by simp [Rules.above, Grammar.pat, hread.run]
  | true => exact fun left => by simp [Rules.above, Grammar.pat, hbar, hread.run, hbars rfl]

section Patterns

variable {name : Ident} (hname : Ident.isKeyword name = false)
include hname

theorem namePat_rereads : PatRereads g.above (namePat name) := by
  refine patRereads_single (fun ts => opAhead_ident "|" ts name) fun rest h => ?_
  have hne := fun (w : String) hw => ne_of_not_keyword hname (w := w) hw
  have hplace : placePatAhead (.ident name :: rest) = false := by
    simp [placePatAhead, pastTree, h.op "::" (by simp), h.op "!" (by simp), h.op ".." (by simp),
      h.brace, h.paren, hne "Self" (by decide), hne "super" (by decide), hne "crate" (by decide)]
  intro left
  change singlePat g ⟨.ident name :: rest, left⟩ = _
  simp [singlePat, hplace, identPat, literalAhead, hname, h.op "@" (by simp), namePat,
    hne "_" (by decide), hne "box" (by decide), hne "true" (by decide), hne "false" (by decide),
    hne "const" (by decide), hne "ref" (by decide), hne "mut" (by decide), hne "self" (by decide)]

theorem mutPat_rereads : PatRereads g.above (.identPat false true name .absent) := by
  refine patRereads_single (fun ts => opAhead_ident "|" _ _) fun rest h => ?_
  have hkeyword : Ident.isKeyword ⟨"mut", false⟩ = true := by decide
  have hplace : placePatAhead (.word "mut" :: .ident name :: rest) = false := by
    simp [placePatAhead, hkeyword]
  have hliteral : literalAhead (.word "mut" :: .ident name :: rest) = false := rfl
  have hself := ne_of_not_keyword hname (w := "self") (by decide)
  intro left
  change singlePat g ⟨.word "mut" :: .ident name :: rest, left⟩ = _
  simp [singlePat, hplace, identPat, hliteral, hname, hself, h.op "@" (by simp)]

end Patterns

/-- A pattern that matches what is present. -/
def somePat (name : Ident) : Pat :=
  .tupleStructPat (.plainPlace (wordPath ["Some"])) (.cons (namePat name) .nil) false

theorem somePat_rereads {name : Ident} (hname : Ident.isKeyword name = false) :
    PatRereads g.above.above (somePat name) := by
  refine patRereads_single (fun ts => opAhead_ident "|" _ _) fun rest _ => ?_
  have hinner : Reads (g.above.pat true) [.ident name] (namePat name) [] :=
    namePat_rereads hname true [] ⟨by simp, rfl, rfl⟩ fun _ => rfl
  have hlist : Reads (listed (g.above.pat true)) [.ident name] ([namePat name], false) [] := by
    intro left
    simp [listed, Parser.separated, separatedFrom, hinner.run]
  have hplace : Reads (place g.above true)
      ((wordPath ["Some"]).tokens ++ .group .paren [.ident name] :: rest)
      (.plainPlace (wordPath ["Some"])) (.group .paren [.ident name] :: rest) :=
    (isNames_word (by decide)).reads_place ⟨by simp, by simp⟩ (by simp)
  have hparen := reads_delimited hlist .paren rest
  have hahead : placePatAhead ((wordPath ["Some"]).tokens ++ .group .paren [.ident name] :: rest) =
      true := rfl
  intro left
  change singlePat g.above ⟨(wordPath ["Some"]).tokens ++ .group .paren [.ident name] :: rest,
    left⟩ = _
  have hsimple : simplePlace? (.plainPlace (wordPath ["Some"])) =
      some ⟨false, [plain "Some"]⟩ := rfl
  simp [singlePat, hahead, placePat, hplace.run, hsimple, bangAhead, hparen.run, somePat,
    Tree.ofList]

/-! Closures and returned values -/

/-- A closure with one parameter. -/
def closureOf (name : Ident) (body : Expr) : Expr :=
  .closureExpr .absent {} (.cons (namePat name) .nil) false .absent body

theorem operand_closure {name : Ident} (hname : Ident.isKeyword name = false) {body : Expr}
    (hbody : ExprRereads g.above body) (harrow : ∀ ts, opAhead "->" (body.tokens ++ ts) = false)
    (hrest : endsValue rest = true) : Operand g.above true ((closureOf name body).tokens ++ rest)
      (closureOf name body) rest := by
  have htokens : (closureOf name body).tokens ++ rest =
      .punct '|' false :: .ident name :: .punct '|' false :: (body.tokens ++ rest) := by
    change [] ++ [] ++ punct '|' ++ commas false [[.ident name]] ++ punct '|' ++ [] ++
      body.tokens ++ rest = _
    simp [punct, commas, separated]
  have hbar : ∀ ts, opAhead "|" (.punct '|' false :: ts) = true := fun _ => by
    simp [opAhead, opAhead.go]
  have hparam : Reads (closureParam g.above)
      (.ident name :: .punct '|' false :: (body.tokens ++ rest)) (namePat name)
      (.punct '|' false :: (body.tokens ++ rest)) := by
    have hpat : Reads (g.above.pat false) (.ident name :: .punct '|' false :: (body.tokens ++ rest))
        (namePat name) (.punct '|' false :: (body.tokens ++ rest)) :=
      namePat_rereads hname false _ ⟨by simp [opAhead, opAhead.go], rfl, rfl⟩ (by simp)
    have hnone : Reads (outerAttributes g.above)
        (.ident name :: .punct '|' false :: (body.tokens ++ rest)) .nil
        (.ident name :: .punct '|' false :: (body.tokens ++ rest)) := reads_noOuter (by simp)
    refine hnone.bind (hpat.bind fun left => ?_)
    simp [opAhead, opAhead.go, attributedPat, Tree.isNil]
  have hparams : Reads (Parser.separated (opAhead "|") "," (closureParam g.above))
      (.ident name :: .punct '|' false :: (body.tokens ++ rest)) ([namePat name], false)
      (.punct '|' false :: (body.tokens ++ rest)) := by
    intro left
    simp [Parser.separated, separatedFrom, hparam.run, hbar]
  rw [htokens]
  refine operand_of_atom rfl (fun op hop => ?_) fun left => ?_
  · have hall : ∀ op ∈ ["#", "&", "*", "!", "-"], op.toList.head? ≠ some '|' := by decide
    exact Bool.eq_false_iff.2 fun h => hall op hop (head?_of_opAhead h)
  · have hliteral : literalAhead (.punct '|' false :: .ident name :: .punct '|' false ::
        (body.tokens ++ rest)) = false := rfl
    simp [atom, hliteral, asyncBlockAhead, closureAhead, hbar, Grammar.closure, binder?,
      closureFlags, dropOp, hparams.run, harrow, (hbody.reads rest hrest).run, closureOf,
      Tree.ofList]

/-- The words that begin an expression of their own. -/
theorem operand_return {value : Expr} (hvalue : ExprRereads g value)
    (hstarts : ∀ ts, exprStarts (value.tokens ++ ts) = true) (hrest : endsValue rest = true) :
    Operand g structs (Tree.tokens (.returnExpr (.present value)) ++ rest)
      (.returnExpr (.present value)) rest := by
  have htokens : Tree.tokens (.returnExpr (.present value)) ++ rest =
      .word "return" :: (value.tokens ++ rest) := rfl
  have hkeyword : Ident.isKeyword ⟨"return", false⟩ = true := by decide
  have hread : Reads (value? g) (value.tokens ++ rest) (.present value) rest := by
    intro left
    simp [value?, hstarts, (hvalue.reads rest hrest).run]
  rw [htokens]
  have hliteral : literalAhead (.word "return" :: (value.tokens ++ rest)) = false := rfl
  refine operand_of_atom rfl (fun op _ => opAhead_word op _ _) fun left => ?_
  simp [atom, hliteral, asyncBlockAhead, closureAhead, bindsAhead, strangeAtom?, valuePathAhead,
    pathStarts, hkeyword, hread.run]

end Bindery.Source
