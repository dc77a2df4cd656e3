import Bindery.Source.Grammar.Declarations

/-!
# Items

Items that can be read but not laid out are kept as tokens: rules that may come upon one yield
nothing then.
-/
namespace Bindery.Source.Grammar

open Bindery.Source.Parser Bindery.Source.Tree

variable (g : Rules)

/-- The words at which a macro invocation may start. -/
def macroStarts : List Wanted :=
  [.identifier, .mark "self", .mark "super", .mark "crate", .mark "::"]

/-- Refuses what comes next. Words that have been seen are not reported; that a macro invocation may
start is, where `macros` holds. -/
def refuseWords (words : List String) (macros : Bool) : Parser α := do
  let ts ← remaining
  refuse ((words.filter (!wordAhead · ts)).map .mark ++ if macros then macroStarts else [])

/-- The content of braces that hold items. -/
def membersOf (p : Parser Item) : Parser (Tree (.one .members)) := delimited .brace do
  let attrs ← innerAttributes g
  let items ← many do
    if ← atEnd then return none
    return some (← p)
  return .members attrs (ofList items)

/-- An item, or the tokens since its start. -/
def itemOr (start : List Token) (p : Parser (Option Item)) : Parser Item := do
  match ← p with
  | some i => return i
  | none => return .strangeItem (← since start)

/-! Items of one sort -/

def macroItem (attrs : Tree (.many .attr)) (named : Bool) : Parser Item := do
  let path ← simplePath
  op "!"
  let name ←
    if named && (← ahead fun ts => identAhead ts || wordAhead "try" ts) then
      pure (some (← anyWord))
    else pure none
  let (d, input) ← anyGroup
  if d != .brace then op ";"
  return .macroItem attrs ⟨path, d, input⟩ name

def macroItemAhead (ts : List Token) : Bool :=
  identAhead ts || ["self", "super", "crate"].any (wordAhead · ts) || opAhead "::" ts

def fnItem (attrs : Tree (.many .attr)) (front : Front) : Parser (Option Item) := do
  let sig ← signature g
  if ← op? ";" then return none
  return some (.fnItem attrs front sig (.present (← g.block true)))

def constName : Parser Ident := do
  if ← ahead fun ts => identAhead ts || wordAhead "_" ts then anyWord
  else refuse [.identifier, .mark "_"]

/-- A constant behind its name. Only in a trait may its value be missing. -/
def constFrom (attrs : Tree (.many .attr)) (front : Front) (inTrait : Bool) (name : Ident) :
    Parser (Option Item) := do
  let ps ← params? g
  op ":"
  let t ← g.type true
  let value ← if ← op? "=" then pure (.present (← g.expr true)) else pure .absent
  let rs ← rules? g
  op ";"
  if !ps.isAbsent || !rs.isAbsent || (value.isAbsent && !inTrait) then return none
  return some (.constItem attrs front name t value)

def constItem (attrs : Tree (.many .attr)) (front : Front) : Parser (Option Item) := do
  word "const"
  constFrom g attrs front false (← constName)

def staticItem (attrs : Tree (.many .attr)) (front : Front) : Parser (Option Item) := do
  word "static"
  let mutable ← word? "mut"
  let name ← ident
  if ← op? "=" then
    discard (g.expr true)
    op ";"
    return none
  op ":"
  let t ← g.type true
  if ← op? ";" then return none
  op "="
  let e ← g.expr true
  op ";"
  return some (.staticItem attrs front mutable name t (.present e))

/-- The parts of a type item. `bounded` says that a colon stands before its bounds. -/
structure TypeParts where
  name : Ident
  params : Tree (.maybe .params)
  bounded : Bool
  bounds : Tree (.many .bound)
  trailing : Bool
  type : Tree (.maybe .type)
  rules : Tree (.maybe .rules)

/-- A type item. Rules may stand before the type where `early` holds, and behind it where `late`
does, but not in both places. -/
def typeParts (early late : Bool) : Parser TypeParts := do
  word "type"
  let name ← ident
  let ps ← params? g
  let bounded ← op? ":"
  let stops := fun ts => wordAhead "where" ts || opAhead "=" ts || opAhead ";" ts
  let (bounds, trailing) ← if bounded then boundsUpTo g stops true else pure (.nil, false)
  let before ← if early then rules? g else pure .absent
  let type ← if ← op? "=" then pure (.present (← g.type true)) else pure .absent
  let rs ← if late && before.isAbsent then rules? g else pure before
  op ";"
  return ⟨name, ps, bounded, bounds, trailing, type, rs⟩

def typeItem (attrs : Tree (.many .attr)) (front : Front) : Parser (Option Item) := do
  let parts ← typeParts g true false
  match parts.bounded, parts.type with
  | false, .present t => return some (.typeItem attrs front parts.name parts.params parts.rules t)
  | _, _ => return none

/-- A type of an implementation or of a trait, where it may be missing or have bounds. -/
def assocTypeItem (attrs : Tree (.many .attr)) (front : Front) (inTrait : Bool) :
    Parser (Option Item) := do
  let parts ← typeParts g false true
  if !inTrait && (parts.bounded || parts.type.isAbsent) then return none
  return some (.assocTypeItem attrs front parts.name parts.params parts.bounds parts.trailing
    parts.type parts.rules)

def structItem (attrs : Tree (.many .attr)) (front : Front) : Parser Item := do
  word "struct"
  let name ← ident
  let ps ← params? g
  let (fields, rs) ← structBody g
  return .structItem attrs front name ps fields rs

def enumItem (attrs : Tree (.many .attr)) (front : Front) : Parser Item := do
  word "enum"
  let name ← ident
  let ps ← params? g
  let rs ← rules? g
  let (variants, trailing) ← delimited .brace (listed (variant g))
  return .enumItem attrs front name ps rs (ofList variants) trailing

def unionItem (attrs : Tree (.many .attr)) (front : Front) : Parser Item := do
  word "union"
  let name ← ident
  let ps ← params? g
  let rs ← rules? g
  return .unionItem attrs front name ps rs (← namedFields g)

def useItem (attrs : Tree (.many .attr)) (front : Front) : Parser (Option Item) := do
  word "use"
  let rooted ← op? "::"
  let tree ← useTree (Token.sizeAll (← remaining) + 1) (!rooted)
  op ";"
  return tree.map (.useItem attrs front rooted)

def moduleItem (attrs : Tree (.many .attr)) (front : Front) : Parser Item := do
  let guarded ← word? "unsafe"
  word "mod"
  let name ← if ← ahead (wordAhead "try") then anyWord else ident
  if ← op? ";" then return .moduleItem attrs front guarded name .absent
  else if ← ahead (groupAhead .brace) then
    return .moduleItem attrs front guarded name (.present (← membersOf g g.item))
  else refuse [.mark ";", .group .brace]

/-- The definition of a macro by example. It is kept as tokens. -/
def macroDefinition : Parser Unit := do
  word "macro"
  discard ident
  if ← ahead (groupAhead .paren) then
    discard (group .paren)
    discard (group .brace)
  else if ← ahead (groupAhead .brace) then discard (group .brace)
  else refuse [.group .paren, .group .brace]

/-! Declarations of what is defined elsewhere -/

def foreignFn (attrs : Tree (.many .attr)) (front : Front) : Parser (Option Item) := do
  let (sig, marked) ← signatureFrom g true
  if ← ahead (groupAhead .brace) then
    discard (g.block true)
    return none
  op ";"
  return if marked then none else some (.fnItem attrs front sig .absent)

def foreignStatic (attrs : Tree (.many .attr)) (front : Front) : Parser (Option Item) := do
  let guarded ← word? "unsafe"
  let marked ← if guarded then pure false else word? "safe"
  word "static"
  let mutable ← word? "mut"
  let name ← ident
  op ":"
  let t ← g.type true
  let valued ← op? "="
  if valued then discard (g.expr true)
  op ";"
  return if guarded || marked || valued then none
    else some (.staticItem attrs front mutable name t .absent)

def foreignType (attrs : Tree (.many .attr)) (front : Front) : Parser (Option Item) := do
  let parts ← typeParts g true true
  if parts.bounded || !parts.type.isAbsent then return none
  return some (.foreignTypeItem attrs front parts.name parts.params parts.rules)

def foreignStaticAhead (ts : List Token) : Bool :=
  wordAhead "static" ts || ((wordAhead "unsafe" ts || wordAhead "safe" ts) &&
    wordAhead "static" (pastTree ts))

/-- An item of an extern block. -/
def foreignItem : Parser Item := do
  let start ← remaining
  let attrs ← outerAttributes g
  let vis ← visibility
  let front : Front := { vis }
  if ← ahead (signatureAhead true) then itemOr start (foreignFn g attrs front)
  else if ← ahead foreignStaticAhead then itemOr start (foreignStatic g attrs front)
  else if ← ahead (wordAhead "type") then itemOr start (foreignType g attrs front)
  else if vis == .inherited && (← ahead macroItemAhead) then macroItem attrs false
  else refuseWords ["fn", "static", "type"] (vis == .inherited)

/-- An extern block has no visibility. -/
def foreignModule (attrs : Tree (.many .attr)) (vis : Visibility) : Parser Item := do
  if vis != .inherited then throw (.expected [.mark "extern"] false)
  let guarded ← word? "unsafe"
  match ← convention? with
  | none => refuse [.mark "extern"]
  | some c => return .externItem attrs guarded c (← membersOf g (foreignItem g))

def externCrate (attrs : Tree (.many .attr)) (front : Front) : Parser Item := do
  word "extern"
  word "crate"
  let name ← if ← ahead (wordAhead "self") then anyWord else ident
  let other ←
    if ← word? "as" then
      if ← ahead (wordAhead "_") then pure (some (← anyWord)) else pure (some (← ident))
    else pure none
  op ";"
  return .externCrateItem attrs front name other

/-- What the word `extern` begins, unless it belongs to a function. -/
def externItem (attrs : Tree (.many .attr)) (front : Front) : Parser Item := do
  let behind := (← remaining).drop 1
  if wordAhead "crate" behind then externCrate attrs front
  else if groupAhead .brace behind then foreignModule g attrs front.vis
  else
    let named := textLiteralAhead behind
    if named && groupAhead .brace (behind.drop 1) then foreignModule g attrs front.vis
    else
      continueAt (if named then behind.drop 1 else behind)
      refuse (if named then [.group .brace] else [.mark "crate", .group .brace, .textLiteral])

/-! Traits and implementations -/

/-- An item of a trait, where functions and constants may lack their body. It has no visibility. -/
def traitMember : Parser Item := do
  let start ← remaining
  let attrs ← outerAttributes g
  let vis ← visibility
  let default ← word? "default"
  let plain := vis == .inherited && !default
  let item ←
    if ← ahead (signatureAhead false) then traitFn attrs
    else if ← word? "const" then
      if ← ahead fun ts => identAhead ts || wordAhead "_" ts then
        pure (← constFrom g attrs {} true (← anyWord))
      else if ← ahead fun ts => ["async", "unsafe", "extern", "fn"].any (wordAhead · ts) then
        traitFn attrs
      else refuse ([.identifier, .mark "_"] ++ ["async", "unsafe", "extern", "fn"].map .mark)
    else if ← ahead (wordAhead "type") then assocTypeItem g attrs {} true
    else if plain && (← ahead macroItemAhead) then pure (some (← macroItem attrs false))
    else refuseWords ["fn", "const", "type"] plain
  match plain, item with
  | true, some i => return i
  | _, _ => return .strangeItem (← since start)
where
  traitFn (attrs : Tree (.many .attr)) : Parser (Option Item) := do
    let sig ← signature g
    if ← op? ";" then return some (.fnItem attrs {} sig .absent)
    else if ← ahead (groupAhead .brace) then
      return some (.fnItem attrs {} sig (.present (← g.block true)))
    else refuse [.group .brace, .mark ";"]

/-- A word that may also be the path of a macro invocation. -/
def defaultAhead (ts : List Token) : Bool :=
  wordAhead "default" ts && !opAhead "!" (pastTree ts)

/-- An item of an implementation. -/
def implMember : Parser Item := do
  let start ← remaining
  let attrs ← outerAttributes g
  let vis ← visibility
  let default ← if ← ahead defaultAhead then word? "default" else pure false
  let front : Front := { vis, default }
  let plain := vis == .inherited && !default
  itemOr start do
    if ← ahead (signatureAhead false) then fnItem g attrs front
    else if ← ahead (wordAhead "const") then constItem g attrs front
    else if ← ahead (wordAhead "type") then assocTypeItem g attrs front false
    else if plain && (← ahead macroItemAhead) then return some (← macroItem attrs false)
    else refuseWords ((if default then [] else ["default"]) ++ ["fn", "const", "type"]) plain

/-- A trait behind its parameters. -/
def traitFrom (attrs : Tree (.many .attr)) (front : Front) (guarded auto : Bool) (name : Ident)
    (ps : Tree (.maybe .params)) : Parser Item := do
  let stops := fun ts => wordAhead "where" ts || groupAhead .brace ts
  let (bounds, trailing) ←
    if ← op? ":" then boundsUpTo g stops true else pure (.nil, false)
  let rs ← rules? g
  return .traitItem attrs front guarded auto name ps bounds trailing rs
    (← membersOf g (traitMember g))

/-- Another name for bounds, behind its parameters. -/
def aliasFrom (attrs : Tree (.many .attr)) (front : Front) (name : Ident)
    (ps : Tree (.maybe .params)) : Parser Item := do
  op "="
  let stops := fun ts => wordAhead "where" ts || opAhead ";" ts
  let (bounds, trailing) ← boundsUpTo g stops false
  let rs ← rules? g
  op ";"
  return .traitAliasItem attrs front name ps bounds trailing rs

def traitItem (attrs : Tree (.many .attr)) (front : Front) : Parser Item := do
  let guarded ← word? "unsafe"
  let auto ← word? "auto"
  word "trait"
  let name ← ident
  let ps ← params? g
  if auto || guarded ||
      (← ahead fun ts => groupAhead .brace ts || opAhead ":" ts || wordAhead "where" ts) then
    traitFrom g attrs front guarded auto name ps
  else if ← ahead (opAhead "=") then aliasFrom g attrs front name ps
  else refuse [.group .brace, .mark ":", .mark "where", .mark "="]

def plainPath? : Ty → Option Path
  | .pathType (.plainPlace p) => some p
  | _ => none

/-- An implementation with a visibility, or of a constant trait, is kept as tokens. -/
def implItem (attrs : Tree (.many .attr)) (vis : Visibility) : Parser (Option Item) := do
  let front : Front := { default := ← word? "default" }
  let guarded ← word? "unsafe"
  word "impl"
  let ps ← if ← ahead paramsAhead then params? g else pure .absent
  let constant ← ahead fun ts => wordAhead "const" ts ||
    (opAhead "?" ts && wordAhead "const" (pastTree ts))
  if constant then
    discard (op? "?")
    word "const"
  let start ← remaining
  let denied ←
    if opAhead "!" start && !groupAhead .brace (pastTree start) then op? "!" else pure false
  let first ← g.type true
  let ofTrait := plainPath? first
  let isFor ← word? "for"
  if denied && !isFor then throw (.rule .deniedMembers false)
  let self ← if isFor then g.type true else pure first
  let rs ← rules? g
  let content ← membersOf g (implMember g)
  if vis != .inherited || constant || (isFor && ofTrait.isNone) then return none
  let ofTrait := match isFor, ofTrait with
    | true, some p => .present p
    | _, _ => .absent
  return some (.implItem attrs front guarded ps denied ofTrait self rs content)

/-! All items -/

/-- The words of an item, in the order in which they are reported. -/
def itemWords : List String :=
  ["fn", "extern", "use", "static", "const", "unsafe", "mod", "type", "struct", "enum", "union",
    "trait", "auto", "impl", "default", "macro"]

/-- What the word `unsafe` begins, unless it belongs to a function. -/
def unsafeItem (attrs : Tree (.many .attr)) (front : Front) : Parser (Option Item) := do
  let behind := (← remaining).drop 1
  if wordAhead "trait" behind || (wordAhead "auto" behind && wordAhead "trait" (pastTree behind))
  then return some (← traitItem g attrs front)
  else if wordAhead "impl" behind then implItem g attrs front.vis
  else if wordAhead "extern" behind then return some (← foreignModule g attrs front.vis)
  else if wordAhead "mod" behind then return some (← moduleItem g attrs front)
  else
    continueAt behind
    refuseWords ["trait", "auto", "impl", "extern", "mod"] false

def item : Parser Item := do
  let start ← remaining
  let attrs ← outerAttributes g
  let vis ← visibility
  let front : Front := { vis }
  itemOr start do
    let ts ← remaining
    let behind := pastTree ts
    if signatureAhead false ts then fnItem g attrs front
    else if wordAhead "extern" ts then return some (← externItem g attrs front)
    else if wordAhead "use" ts then useItem attrs front
    else if wordAhead "static" ts then staticItem g attrs front
    else if wordAhead "const" ts then constItem g attrs front
    else if wordAhead "unsafe" ts then unsafeItem g attrs front
    else if wordAhead "mod" ts then return some (← moduleItem g attrs front)
    else if wordAhead "type" ts then typeItem g attrs front
    else if wordAhead "struct" ts then return some (← structItem g attrs front)
    else if wordAhead "enum" ts then return some (← enumItem g attrs front)
    else if wordAhead "union" ts && identAhead behind then
      return some (← unionItem g attrs front)
    else if wordAhead "trait" ts || (wordAhead "auto" ts && wordAhead "trait" behind) then
      return some (← traitItem g attrs front)
    else if wordAhead "impl" ts || defaultAhead ts then implItem g attrs vis
    else if wordAhead "macro" ts then
      macroDefinition
      return none
    else if vis == .inherited && macroItemAhead ts then return some (← macroItem attrs true)
    else refuseWords itemWords (vis == .inherited)

end Bindery.Source.Grammar
