import Bindery.Layout.Parts

/-!
# Layout of syntax trees

Every tree becomes a sequence of texts, boxes and breaks. What is kept as tokens has no layout.
-/
namespace Bindery.Source

open Layout

def Tree.docs : {s : Shape} → Tree s → Role → Laid s
  | _, .nil, _ => []
  | _, .cons x rest, role => x.docs role :: rest.docs role
  | _, .absent, _ => none
  | _, .present x, role => some (x.docs role)
  -- attributes
  | _, .markAttr inner p, _ => hashDocs inner (namesDocs p)
  | _, .listAttr inner p d input, _ =>
    hashDocs inner (namesDocs p ++ (attrToken true .mark (.group d input)).1)
  | _, .valueAttr inner p value, _ =>
    (commentOf? inner p value).getD
      (hashDocs inner (namesDocs p ++ word " = " :: value.docs .usual))
  -- types
  | _, .arrayType elem length, _ =>
    [word "["] ++ elem.docs .usual ++ [word "; "] ++ length.docs .usual ++ [word "]"]
  | _, .fnType binder guarded convention inputs _ rest output, _ =>
    (binder.docs .usual).getD [] ++ flag guarded "unsafe " ++ conventionDocs convention ++
      [word "fn(", cbox step (dedent (paramDocs (inputs.docs .usual) (rest.docs .usual))),
        word ")"] ++
      behind " -> " (output.docs .usual)
  | _, .someType bounds _, _ => word "impl " :: plusDocs (bounds.docs .usual)
  | _, .inferredType, _ => [word "_"]
  | _, .macroType m, _ => macroDocs m none false
  | _, .neverType, _ => [word "!"]
  | _, .parenType t, _ => [word "("] ++ t.docs .usual ++ [word ")"]
  | _, .pathType p, _ => p.docs .usual
  | _, .pointerType mutable t, _ =>
    word "*" :: word (if mutable then "mut " else "const ") :: t.docs .usual
  | _, .referenceType l mutable t, _ =>
    word "&" :: lifetimeDocs l ++ flag mutable "mut " ++ t.docs .usual
  | _, .sliceType t, _ => [word "["] ++ t.docs .usual ++ [word "]"]
  | _, .objectType _ bounds _, _ => word "dyn " :: plusDocs (bounds.docs .usual)
  | _, .tupleType elems _, _ => tupleDocs (elems.docs .usual)
  | _, .strangeType _, _ => [.gap]
  | _, .namedType attrs name t, _ =>
    (attrs.docs .usual).flatten ++ nameDocs name ++ t.docs .usual
  | _, .variadic attrs name _, _ =>
    (attrs.docs .usual).flatten ++ (match name.docs .usual with
      | some p => p ++ [word ": "]
      | none => []) ++ [word "..."]
  -- paths
  | _, .path rooted segments, role =>
    flag rooted "::" ++ joined [word "::"] (segments.docs role)
  | _, .segment name args, role => word name.text :: args.docs role
  | _, .noArgs, _ => []
  | _, .angleArgs _ args _, role =>
    let elems := lifetimesFirst (lifetimesAmong args) (args.docs .usual)
    if elems.isEmpty then []
    else (if role == .value then [word "::"] else []) ++ enclosed "<" ">" elems
  | _, .callArgs inputs _ output, _ =>
    [cbox step (word "(" :: dedent (zero :: Layout.withCommas lastComma (inputs.docs .usual)) ++
      [word ")"] ++ behind " -> " (output.docs .usual))]
  | _, .plainPlace p, role => p.docs role
  | _, .itemPlace self ofTrait rest, role =>
    word "<" :: self.docs .usual ++ behind " as " (ofTrait.docs .usual) ++ [word ">"] ++
      (rest.docs role).flatMap (word "::" :: ·)
  | _, .lifetimeArg n, _ => [word (lifetimeText n)]
  | _, .typeArg t, _ => t.docs .usual
  | _, .constArg e, _ => e.docs .usual
  | _, .assocTypeArg n args t, _ =>
    word n.text :: args.docs .usual ++ word " = " :: t.docs .usual
  | _, .assocConstArg n args e, _ =>
    word n.text :: args.docs .usual ++ word " = " :: e.docs .usual
  | _, .constraintArg n args bounds _, _ =>
    word n.text :: args.docs .usual ++ [ibox step (boundDocs (bounds.docs .usual))]
  | _, .lifetimeBound n, _ => [word (lifetimeText n)]
  | _, .traitBound paren maybe binder p, _ =>
    flag paren "(" ++ flag maybe "?" ++ (binder.docs .usual).getD [] ++ p.docs .usual ++
      flag paren ")"
  | _, .captureBound names _, _ =>
    [word "use<"] ++ joined [word ", "] (names.map fun (isLifetime, n) =>
      [word (if isLifetime then lifetimeText n else n.text)]) ++ [word ">"]
  | _, .strangeBound _, _ => [.gap]
  | _, .lifetimeParam attrs n bounds, _ =>
    (attrs.docs .usual).flatten ++ word (lifetimeText n) ::
      if bounds.names.isEmpty then []
      else word ": " :: plusDocs (bounds.names.map fun b => [word (lifetimeText b)])
  | _, .typeParam attrs n bounds _ default, _ =>
    (attrs.docs .usual).flatten ++ [word n.text, ibox step (boundDocs (bounds.docs .usual) ++
      (match default.docs .usual with
        | some t => space :: word "= " :: t
        | none => []))]
  | _, .constParam attrs n t default, _ =>
    (attrs.docs .usual).flatten ++ word "const " :: word n.text :: word ": " :: t.docs .usual ++
      behind " = " (default.docs .usual)
  | _, .params elems _, _ => parameterDocs (lifetimesAmong elems) (elems.docs .usual)
  | _, .forAll elems _, _ =>
    word "for<" :: joined [word ", "] (elems.docs .usual) ++ [word "> "]
  | _, .lifetimeRule n bounds, _ =>
    [word (lifetimeText n), word ":",
      lifetimeRuleBounds (bounds.names.map fun b => [word (lifetimeText b)])]
  | _, .typeRule binder t bounds _, _ =>
    (binder.docs .usual).getD [] ++ t.docs .usual ++ [word ":", ruleBounds (bounds.docs .usual)]
  | _, .rules elems _, role =>
    match role with
    | .rules place => rulesDocs place (elems.docs .usual)
    | _ => []
  -- expressions
  | _, .attributed attrs e, role =>
    let front := (attrs.docs .usual).flatten
    match role, e with
    | .armBody, .blockExpr label .plain body => labelDocs label ++ bodyBox (body.docs .tall)
    | .armBody, e => wrapped role (.attributed attrs e) (front ++ e.docs .lineStart)
    | role, e => front ++ e.docs role
  | _, .arrayExpr elems trailing, role =>
    framed role (.arrayExpr elems trailing) (
      if elems.isNil then [word "[]"]
      else if areBrief elems then [briefBox (elems.docs .usual)]
      else enclosed "[" "]" (elems.docs .usual))
  | _, .assignExpr left right, role =>
    framed role (.assignExpr left right)
      [ibox 0 (left.docs .usual ++ [word " = ", never] ++ right.docs .usual)]
  | _, .awaitExpr e, role =>
    chained role (.awaitExpr e)
      (e.docs role.chainedOn ++ dotBreak role.atStart e ++ [word ".await"])
  | _, .binaryExpr left op right, role =>
    framed role (.binaryExpr left op right)
      [ibox step ([ibox (-step) (left.docs .usual), space, word op, nbsp] ++ right.docs .usual)]
  | _, .blockExpr label kind body, role =>
    let whole := .blockExpr label kind body
    let small := fun content =>
      labelDocs label ++ blockKindDocs kind ++ [cbox step (smallBlock content)]
    match role, kind with
    | .armBody, .plain =>
      if label.isNone && isUnmarked body then body.docs .armBody
      else labelDocs label ++ bodyBox (body.docs .tall)
    | .otherwise, .plain => smallBlock (body.docs .usual)
    | _, _ => framed role whole (small (body.docs .usual))
  | _, .breakExpr label value, role =>
    framed role (.breakExpr label value) (word "break" ::
      (match label with
        | some l => [nbsp, word (lifetimeText l)]
        | none => []) ++ behind " " (value.docs .usual))
  | _, .callExpr callee args trailing, role =>
    let call := callee.docs role.called ++ [word "("] ++ argDocs args (args.docs .usual) ++
      [word ")"]
    match role with
    | .receiver _ => call
    | _ => wrapped role (.callExpr callee args trailing) call
  | _, .castExpr e t, role =>
    framed role (.castExpr e t)
      [ibox step ([ibox (-step) (e.docs .usual), space, word "as "] ++ t.docs .usual)]
  | _, .closureExpr binder flags inputs trailing output body, role =>
    let names := inputs.docs .usual
    let between := if names.isEmpty then [] else zero :: joined [word ",", space] names
    let content := body.docs .usual
    let closure := match output.docs .usual with
      | none => [cbox step (dedent (word "|" :: between ++ [word "|", space])), never] ++
        (if isOpenBody body then content else [wrappedBody body content "" ""])
      | some t =>
        [cbox step (word "|" ::
          (if names.isEmpty then [] else dedent (between ++ [lastComma])) ++ [word "|"]),
          word " -> "] ++ t ++ [nbsp, never] ++ content
    framed role (.closureExpr binder flags inputs trailing output body)
      [ibox 0 ((binder.docs .usual).getD [] ++ closureFlagDocs flags ++ closure)]
  | _, .continueExpr label, role =>
    framed role (.continueExpr label) (word "continue" ::
      (match label with
        | some l => [nbsp, word (lifetimeText l)]
        | none => []))
  | _, .fieldExpr e m, role =>
    chained role (.fieldExpr e m)
      (e.docs role.chainedOn ++ dotBreak role.atStart e ++ [word ".", word m.text])
  | _, .forExpr label pat source body, role =>
    framed role (.forExpr label pat source body)
      (labelDocs label ++ word "for " :: pat.docs .usual ++ [word " in ", never,
        conditionDocs source (source.docs .usual)] ++ bodyBox (body.docs .tall))
  | _, .ifExpr cond body otherwise, role =>
    let inChain := role == .otherwise
    let front := [word "if ", cbox (-step) [conditionDocs cond (cond.docs .usual)]]
    let content := body.docs (if otherwise.isAbsent && !inChain then .tall else .usual)
    let all := front ++ match otherwise.docs .otherwise with
      | some other => smallBlock content ++ word " else " :: other
      | none =>
        if inChain || content.isEmpty then smallBlock content
        else word "\x7b" :: dedent (line :: content) ++ [word "\x7d"]
    if inChain then all else framed role (.ifExpr cond body otherwise) [cbox step all]
  | _, .indexExpr e i, role =>
    let all := e.docs role.passed ++ [word "["] ++ i.docs .usual ++ [word "]"]
    match role with
    | .receiver _ => all
    | _ => wrapped role (.indexExpr e i) all
  | _, .inferredExpr, role => framed role .inferredExpr [word "_"]
  | _, .letExpr pat e, role =>
    framed role (.letExpr pat e) [ibox 0 [word "let ", ibox 0 (pat.docs .usual), word " = ", never,
      ibox 0 (e.docs .usual)]]
  | _, .literalExpr text, role => framed role (.literalExpr text) [word text]
  | _, .loopExpr label body, role =>
    framed role (.loopExpr label body) (labelDocs label ++
      [word "loop \x7b", cbox step (bodyDocs (body.docs .tall)), word "\x7d"])
  | _, .macroExpr m, role => framed role (.macroExpr m) (macroDocs m none false)
  | _, .matchExpr e attrs arms, role =>
    framed role (.matchExpr e attrs arms)
      [ibox 0 ([word "match ", conditionDocs e (e.docs .usual)] ++
        bodyBox ((attrs.docs .usual).flatten ++ (arms.docs .usual).flatMap (· ++ [line])))]
  | _, .methodExpr receiver name typeArgs args trailing, role =>
    let short := isShort receiver
    let outermost := match role with
      | .receiver _ => false
      | _ => role.atStart
    let call := [word "("] ++ argDocs args (args.docs .usual) ++ [word ")"]
    chained role (.methodExpr receiver name typeArgs args trailing)
      (receiver.docs role.chainedOn ++ dotBreak role.atStart receiver ++
        [word ".", word name.text] ++ typeArgs.docs .value ++
        [cbox (if outermost && short then -step else 0) call])
  | _, .parenExpr e, role =>
    framed role (.parenExpr e) ([word "("] ++ e.docs .usual ++ [word ")"])
  | _, .pathExpr p, role => framed role (.pathExpr p) (p.docs .value)
  | _, .rangeExpr left closed right, role =>
    framed role (.rangeExpr left closed right) ((left.docs .usual).getD [] ++
      [word (if closed then "..=" else "..")] ++ (right.docs .usual).getD [])
  | _, .addressExpr mutable e, role =>
    framed role (.addressExpr mutable e)
      (word "&raw " :: word (if mutable then "mut " else "const ") :: e.docs .usual)
  | _, .referenceExpr mutable e, role =>
    framed role (.referenceExpr mutable e)
      (word "&" :: flag mutable "mut " ++ e.docs .usual)
  | _, .repeatExpr e length, role =>
    framed role (.repeatExpr e length)
      ([word "["] ++ e.docs .usual ++ [word "; "] ++ length.docs .usual ++ [word "]"])
  | _, .returnExpr value, role =>
    framed role (.returnExpr value) (word "return" :: behind " " (value.docs .usual))
  | _, .structExpr p fields trailing dots base, role =>
    framed role (.structExpr p fields trailing dots base)
      [cboxUpTo 34 step ([ibox (-step) (p.docs .value), word " \x7b"] ++
        fieldDocs (fields.docs .usual) ((base.docs .usual).map (word ".." :: ·))), word "\x7d"]
  | _, .tryExpr e, role =>
    let all := e.docs role.passed ++ [word "?"]
    match role with
    | .receiver _ => all
    | _ => wrapped role (.tryExpr e) all
  | _, .tupleExpr elems trailing, role =>
    match role, elems with
    | .armBody, .nil => bodyBox []
    | _, _ => framed role (.tupleExpr elems trailing) (tupleDocs (elems.docs .usual))
  | _, .unaryExpr op e, role =>
    framed role (.unaryExpr op e) (word op.toString :: e.docs .usual)
  | _, .whileExpr label cond body, role =>
    framed role (.whileExpr label cond body)
      (labelDocs label ++ [word "while ", conditionDocs cond (cond.docs .usual)] ++
        bodyBox (body.docs .tall))
  | _, .yieldExpr value, role =>
    framed role (.yieldExpr value) (word "yield" :: behind " " (value.docs .usual))
  | _, .strangeExpr _, _ => [.gap]
  | _, .fieldValue attrs m value, _ =>
    (attrs.docs .usual).flatten ++ word m.text :: match value.docs .usual with
      | some docs => [word ": ", ibox 0 docs]
      | none => []
  | _, .arm attrs pat guard body _, _ =>
    (attrs.docs .usual).flatten ++ [ibox 0 (pat.docs .usual ++ behind " if " (guard.docs .usual) ++
      word " => " :: body.docs .armBody)]
  -- patterns
  | _, .attributedPat attrs p, _ => (attrs.docs .usual).flatten ++ p.docs .usual
  | _, .anyPat, _ => [word "_"]
  | _, .constPat body, _ => [word "const ", cbox step (smallBlock (body.docs .usual))]
  | _, .identPat byRef mutable name sub, _ =>
    flag byRef "ref " ++ flag mutable "mut " ++ word name.text ::
      behind " @ " (sub.docs .usual)
  | _, .literalPat text, _ => [word text]
  | _, .rangePat left closed right, _ =>
    (left.docs .usual).getD [] ++ [word (if closed then "..=" else "..")] ++
      (right.docs .usual).getD []
  | _, .macroPat m, _ => macroDocs m none false
  | _, .orPat _ cases, _ =>
    [.box (!allBrief cases) 0 (joined [space, word "| "] (cases.docs .usual))]
  | _, .parenPat p, _ => [word "("] ++ p.docs .usual ++ [word ")"]
  | _, .pathPat p, _ => p.docs .value
  | _, .referencePat mutable p, _ => word "&" :: flag mutable "mut " ++ p.docs .usual
  | _, .restPat, _ => [word ".."]
  | _, .slicePat elems _, _ =>
    [word "["] ++ joined [word ", "] (elems.docs .usual) ++ [word "]"]
  | _, .structPat p fields _ rest, _ =>
    [cbox step (p.docs .value ++ word " \x7b" ::
      fieldDocs (fields.docs .usual) (rest.docs .usual)), word "\x7d"]
  | _, .tuplePat elems trailing, _ =>
    match elems, elems.docs .usual with
    | .cons _ .nil, [x] =>
      [word "(", cbox step (dedent (zero :: x ++ flag trailing "," ++ [zero])), word ")"]
    | _, xs => enclosed "(" ")" xs
  | _, .tupleStructPat p elems _, _ => p.docs .value ++ enclosed "(" ")" (elems.docs .usual)
  | _, .typedPat p t, _ => p.docs .usual ++ word ": " :: t.docs .usual
  | _, .strangePat _, _ => [.gap]
  | _, .fieldPat attrs m p, _ =>
    (attrs.docs .usual).flatten ++ word m.text :: word ": " :: p.docs .usual
  | _, .shortFieldPat attrs p, _ => (attrs.docs .usual).flatten ++ p.docs .usual
  | _, .otherFieldsPat attrs, _ => (attrs.docs .usual).flatten ++ [word ".."]
  -- statements
  | _, .letStmt attrs pat value otherwise, _ =>
    let front := word "let " :: pat.docs .usual ++ match value.docs .usual with
      | some e => word " = " :: never :: e
      | none => []
    (attrs.docs .usual).flatten ++ match otherwise.docs .usual with
    | none => [ibox 0 (front ++ [word ";"]), line]
    | some content =>
      [ibox 0 (front ++ [space, word "else "]), never, cbox step (smallBlock content), word ";",
        line]
  | _, .itemStmt i, _ => i.docs .usual
  | _, .exprStmt e semi, _ =>
    let ends := if semi then !dropsSemicolon e else takesSemicolon e
    [ibox 0 (e.docs .lineStart ++ flag ends ";"), line]
  | _, .macroStmt attrs m semi, _ =>
    (attrs.docs .usual).flatten ++ macroDocs m none semi ++ [line]
  | _, .emptyStmt, _ => []
  | _, .block attrs (.cons (.exprStmt e false) .nil), role =>
    let front := (attrs.docs .usual).flatten
    match role with
    | .armBody => e.docs .armBody
    | .tall => front ++ [ibox 0 (e.docs .lineStart ++ flag (takesSemicolon e) ";"), line]
    | _ => front ++ soleDocs (e.docs .lineStart)
  | _, .block attrs stmts, role =>
    let content := (attrs.docs .usual).flatten ++ (stmts.docs .usual).flatten
    match role with
    | .armBody => bodyBox content
    | _ => content
  -- parts of items
  | _, .field attrs vis name t, _ =>
    (attrs.docs .usual).flatten ++ visDocs vis ++ nameDocs name ++ t.docs .usual
  | _, .unitFields, _ => []
  | _, .namedFields elems _, role =>
    let elems := elems.docs .usual
    if role == .tall then elems.flatMap (· ++ [word ",", line])
    else [nbsp, word "\x7b", cbox step (dedent (space :: Layout.withCommas lastCommaOrSpace elems)),
      word "\x7d"]
  | _, .plainFields elems _, _ =>
    word "(" :: dedent (zero :: Layout.withCommas lastComma (elems.docs .usual)) ++ [word ")"]
  | _, .variant attrs name fields value, _ =>
    let content := fields.docs .usual
    let content := match fields with
      | .plainFields .. => [cbox step content]
      | _ => content
    (attrs.docs .usual).flatten ++ word name.text :: content ++ behind " = " (value.docs .usual)
  | _, .selfParam attrs reference l mutable t, _ =>
    (attrs.docs .usual).flatten ++ selfDocs reference l mutable ++ behind ": " (t.docs .usual)
  | _, .param attrs pat t, _ =>
    (attrs.docs .usual).flatten ++ pat.docs .usual ++ word ": " :: t.docs .usual
  | _, .signature flags name ps inputs _ rest output rs, role =>
    let place := if role == .tall then .beforeBody else .atEnd
    fnFlagDocs flags ++ [word "fn ", word name.text] ++ (ps.docs .usual).getD [] ++
      [word "(", never, cbox 0 (dedent (paramDocs (inputs.docs .usual) (rest.docs .usual))),
        word ")", cbox (-step) (behind " -> " (output.docs .usual))] ++
      rulesAt place (rs.docs (.rules place))
  | _, .members attrs items, role =>
    (attrs.docs .usual).flatten ++ (items.docs role).flatten
  -- items
  | _, .constItem attrs front name t value, _ =>
    (attrs.docs .usual).flatten ++ [cbox 0 (frontDocs front ++ [word "const ", word name.text,
      word ": "] ++ t.docs .usual ++ (match value.docs .usual with
        | some e => word " = " :: never :: e
        | none => []) ++ [word ";"]), line]
  | _, .enumItem attrs front name ps rs variants _, _ =>
    (attrs.docs .usual).flatten ++ bodied (frontDocs front ++ [word "enum ", word name.text] ++
      (ps.docs .usual).getD [] ++ rulesAt .beforeBody (rs.docs (.rules .beforeBody)))
      ((variants.docs .usual).flatMap (· ++ [word ",", line]))
  | _, .externItem attrs guarded convention content, _ =>
    (attrs.docs .usual).flatten ++
      bodied (flag guarded "unsafe " ++ conventionDocs (some convention)) (content.docs .usual)
  | _, .externCrateItem attrs front name other, _ =>
    (attrs.docs .usual).flatten ++ frontDocs front ++ [word "extern crate ", word name.text] ++
      (match other with
        | some o => [word " as ", word o.text]
        | none => []) ++ [word ";", line]
  | _, .fnItem attrs front sig body, _ =>
    (attrs.docs .usual).flatten ++ match body.docs .tall with
      | some content => bodied (frontDocs front ++ sig.docs .tall) content
      | none => [cbox step (frontDocs front ++ sig.docs .usual), line]
  | _, .implItem attrs front guarded ps denied ofTrait self rs content, _ =>
    let head := cbox step (flag front.default "default " ++ flag guarded "unsafe " ++
      [word "impl"] ++ (ps.docs .usual).getD [])
    let subject := match ofTrait.docs .usual with
      | some p => flag denied "!" ++ p ++ [space, word "for "]
      | none => []
    (attrs.docs .usual).flatten ++
      bodied ([ibox (-step) ([head, nbsp] ++ subject ++ self.docs .usual)] ++
        rulesAt .beforeBody (rs.docs (.rules .beforeBody))) (content.docs .tall)
  | _, .macroItem attrs m name, _ =>
    (attrs.docs .usual).flatten ++ macroDocs m name true ++ [line]
  | _, .moduleItem attrs front guarded name content, _ =>
    let head := frontDocs front ++ flag guarded "unsafe " ++ [word "mod ", word name.text]
    (attrs.docs .usual).flatten ++ match content.docs .usual with
      | some content => bodied (head ++ [nbsp]) content
      | none => [cbox step (head ++ [word ";"]), line]
  | _, .staticItem attrs front mutable name t value, _ =>
    (attrs.docs .usual).flatten ++ [cbox 0 (frontDocs front ++ [word "static "] ++
      flag mutable "mut " ++ [word name.text, word ": "] ++ t.docs .usual ++
      (match value.docs .usual with
        | some e => word " = " :: never :: e
        | none => []) ++ [word ";"]), line]
  | _, .structItem attrs front name ps fields rs, _ =>
    let head := frontDocs front ++ [word "struct ", word name.text] ++ (ps.docs .usual).getD []
    let content := fields.docs .tall
    (attrs.docs .usual).flatten ++
      if areNamed fields then
        bodied (head ++ rulesAt .beforeBody (rs.docs (.rules .beforeBody))) content
      else [cbox step (head ++ content ++ rulesAt .atEnd (rs.docs (.rules .atEnd))), line]
  | _, .traitItem attrs front guarded auto name ps bounds _ rs content, _ =>
    let bounds := bounds.docs .usual
    (attrs.docs .usual).flatten ++ bodied (frontDocs front ++ flag guarded "unsafe " ++
      flag auto "auto " ++ [word "trait ", word name.text] ++ (ps.docs .usual).getD [] ++
      (if bounds.isEmpty then [] else word ": " :: plusDocs bounds) ++
      rulesAt .beforeBody (rs.docs (.rules .beforeBody))) (content.docs .tall)
  | _, .traitAliasItem attrs front name ps bounds _ rs, _ =>
    (attrs.docs .usual).flatten ++ [cbox step (frontDocs front ++ [word "trait ", word name.text] ++
      (ps.docs .usual).getD [] ++ [word " = ", never] ++
      joined [space, word "+ "] (bounds.docs .usual) ++
      rulesAt .atEnd (rs.docs (.rules .atEnd))), line]
  | _, .typeItem attrs front name ps rs t, _ =>
    (attrs.docs .usual).flatten ++ [cbox step (frontDocs front ++ [word "type ", word name.text] ++
      (ps.docs .usual).getD [] ++ rulesAt .inLine (rs.docs (.rules .inLine)) ++
      [word "= ", never, ibox (-step) (t.docs .usual), word ";"]), line]
  | _, .assocTypeItem attrs front name ps bounds _ t rs, _ =>
    (attrs.docs .usual).flatten ++ [cbox step (frontDocs front ++ [word "type ", word name.text] ++
      (ps.docs .usual).getD [] ++ boundDocs (bounds.docs .usual) ++
      (match t.docs .usual with
        | some t => [word " = ", never, ibox (-step) t]
        | none => []) ++ rulesAt .inLineAtEnd (rs.docs (.rules .inLineAtEnd))), line]
  | _, .foreignTypeItem attrs front name ps _, _ =>
    (attrs.docs .usual).flatten ++ [cbox 0 (frontDocs front ++ [word "type ", word name.text] ++
      (ps.docs .usual).getD [] ++ [word ";"]), line]
  | _, .unionItem attrs front name ps rs fields, _ =>
    (attrs.docs .usual).flatten ++ bodied (frontDocs front ++ [word "union ", word name.text] ++
      (ps.docs .usual).getD [] ++ rulesAt .beforeBody (rs.docs (.rules .beforeBody)))
      (fields.docs .tall)
  | _, .useItem attrs front rooted tree, _ =>
    (attrs.docs .usual).flatten ++ frontDocs front ++ [word "use "] ++ flag rooted "::" ++
      useDocs tree ++ [word ";", line]
  | _, .strangeItem _, _ => [.gap]

/-- The text of a file, unless a part of it cannot be laid out. -/
def File.text? (f : File) : Option String :=
  render? [cbox 0 (f.attrs.flatMap (·.docs .usual) ++ f.items.flatMap (·.docs .usual))]

end Bindery.Source
