import Bindery.Source.Grammar.Types

/-!
# Patterns
-/
namespace Bindery.Source.Grammar

open Bindery.Source.Parser Bindery.Source.Tree

variable (g : Rules)

/-- What may start a pattern, in the order in which it is reported. -/
def patStarts : List Wanted :=
  [.identifier, .mark "::", .mark "<", .mark "_", .literal, .mark "const", .mark "ref",
    .mark "mut", .mark "&", .group .paren, .group .bracket, .mark "..", .mark "const"]

/-! Members -/

/-- The position that a number stands for. -/
def position (text : String) : Parser Nat :=
  let (signed, number) := Literal.unsigned text.toList
  match Literal.integer? number with
  | none => throw (.expected [.integer] false)
  | some (n, suffix) =>
    if !suffix.isEmpty then throw (.expected [.wholeNumber] false)
    else if signed then throw (.rule .signedPosition false)
    else if n > 4294967295 then throw (.rule .largePosition false)
    else return n

/-- A literal that passes a test, if one comes next. -/
def literal? (test : String → Bool) : Parser (Option String) := do
  let start ← remaining
  if literalAhead start then
    let text ← literal
    if test text then return some text
    continueAt start
  return none

def member : Parser Member := do
  if ← ahead identAhead then return .name (← ident)
  match ← literal? Literal.isInteger with
  | some text => return .position (← position text)
  | none => refuse [.member]

/-! Ranges -/

/-- An end of a range of values. -/
def rangeBound : Parser Expr := do
  if ← ahead literalAhead then return .literalExpr (← literal)
  if ← ahead pathStarts then return .pathExpr (← place g true)
  if ← word? "const" then return .blockExpr none .constant (← g.block true)
  refuse [.literal, .identifier, .mark "::", .mark "<", .mark "self", .mark "Self",
    .mark "super", .mark "crate", .mark "const"]

/-- Where a range of values has no end. -/
def boundStops (ts : List Token) : Bool :=
  ts.isEmpty || opAhead "|" ts || opAhead "=" ts || colonAhead ts || opAhead "," ts ||
    opAhead ";" ts || wordAhead "if" ts

def rangeBound? : Parser (Tree (.maybe .expr)) := do
  if ← ahead boundStops then return .absent else return .present (← rangeBound g)

/-- Whether a range includes its end. -/
def rangeLimits : Parser Bool := do
  if ← ahead (opAhead "...") then refuse [.mark "..="]
  if ← op? "..=" then return true
  op ".."
  return false

/-- A range of values that has a start; three dots include its end. -/
def rangeFrom (start : Expr) : Parser Pat := do
  let closed ← if ← op? "..." then pure true else rangeLimits
  let end_ ← rangeBound? g
  if closed && end_.isAbsent then refuse [.rangeEnd]
  return .rangePat (.present start) closed end_

/-- A range of values without a start, or two dots alone. -/
def rangeTo : Parser Pat := do
  let closed ← rangeLimits
  let end_ ← rangeBound? g
  if !end_.isAbsent then return .rangePat .absent closed end_
  else if closed then refuse [.rangeEnd]
  else return .restPat

/-- A value as a pattern of its own. -/
def valuePat : Expr → Pat
  | .literalExpr text => .literalPat text
  | .pathExpr p => .pathPat p
  | .blockExpr _ _ body => .constPat body
  | _ => .anyPat

/-! Patterns that begin with a path -/

/-- A field of a struct pattern. -/
def fieldPat (attrs : Tree (.many .attr)) : Parser (Tree (.one .fieldPat)) := do
  let start ← remaining
  let boxed ← word? "box"
  let byRef ← word? "ref"
  let mutable ← word? "mut"
  if boxed then
    discard ident
    return .shortFieldPat attrs (.strangePat (← since start))
  if byRef || mutable then
    return .shortFieldPat attrs (.identPat byRef mutable (← ident) .absent)
  match ← member with
  | .name i =>
    if ← op? ":" then return .fieldPat attrs (.name i) (← g.pat true)
    else return .shortFieldPat attrs (.identPat false false i .absent)
  | m =>
    op ":"
    return .fieldPat attrs m (← g.pat true)

/-- The fields of a struct pattern, whether a comma comes last, and what stands for all others. -/
def fieldPats (n : Nat) (trailing : Bool) :
    Parser (List (Tree (.one .fieldPat)) × Bool × Tree (.maybe .fieldPat)) :=
  match n with
  | 0 => throw .exhausted
  | n + 1 => do
    if ← atEnd then return ([], trailing, .absent)
    let attrs ← outerAttributes g
    if ← op? ".." then return ([], trailing, .present (.otherFieldsPat attrs))
    let field ← fieldPat g attrs
    if ← atEnd then return ([field], false, .absent)
    op ","
    let (fields, more) ← fieldPats n true
    return (field :: fields, more)

/-- A macro invocation comes next if a path that it may begin with has been read. -/
def bangAhead (ts : List Token) : Bool := opAhead "!" ts && !opAhead "!=" ts

/-- The names of a place that a macro invocation may begin with. -/
def simplePlace? : Place → Option SimplePath
  | .plainPlace p => simple? p
  | .itemPlace .. => none

/-- A pattern that begins with a path. -/
def placePat : Parser Pat := do
  let p ← place g true
  if let (some names, true) := (simplePlace? p, ← ahead bangAhead) then
    return .macroPat (← macroRest names)
  if ← ahead (groupAhead .brace) then
    let (fields, trailing, rest) ← delimited .brace do
      fieldPats g ((← remaining).length + 1) false
    return .structPat p (ofList fields) trailing rest
  else if ← ahead (groupAhead .paren) then
    let (elems, trailing) ← delimited .paren (listed (g.pat true))
    return .tupleStructPat p (ofList elems) trailing
  else if ← ahead (opAhead "..") then rangeFrom g (.pathExpr p)
  else return .pathPat p

/-- Whether a path with more than one name, or a path with something behind it, starts here. -/
def placePatAhead (ts : List Token) : Bool :=
  let behind := pastTree ts
  (identAhead ts && (opAhead "::" behind || opAhead "!" behind || groupAhead .brace behind ||
    groupAhead .paren behind || opAhead ".." behind)) ||
  (wordAhead "self" ts && opAhead "::" behind) || opAhead "::" ts || opAhead "<" ts ||
  ["Self", "super", "crate"].any (wordAhead · ts)

/-! Other patterns -/

def identPat : Parser Pat := do
  let byRef ← word? "ref"
  let mutable ← word? "mut"
  let name ← if ← ahead (wordAhead "self") then anyWord else ident
  let sub ← if ← op? "@" then pure (.present (← g.pat false)) else pure .absent
  return .identPat byRef mutable name sub

def isRestPat : Pat → Bool
  | .restPat => true
  | _ => false

def parenPat : Parser Pat := do
  let (elems, trailing) ← delimited .paren (listed (g.pat true))
  match elems with
  | [p] =>
    if trailing || isRestPat p then return .tuplePat (ofList elems) trailing
    else return .parenPat p
  | _ => return .tuplePat (ofList elems) trailing

/-- A range with both ends, or no range at all. -/
def isClosedPat : Pat → Bool
  | .rangePat left _ right => !left.isAbsent && !right.isAbsent
  | _ => true

def slicePat : Parser Pat := do
  let (elems, trailing) ← delimited .bracket do
    listed do
      let p ← g.pat true
      if !isClosedPat p then throw (.rule .openRangeInSlice false)
      return p
  return .slicePat (ofList elems) trailing

/-- What may start a pattern, without what has been seen. -/
def refusePat : Parser Pat := do
  let dots ← ahead (opAhead "..")
  refuse (patStarts.filter fun w => !(dots && w == .mark ".."))

def singlePat : Parser Pat := do
  if ← ahead placePatAhead then placePat g
  else if ← word? "_" then return .anyPat
  else if ← ahead (wordAhead "box") then
    let (_, tokens) ← consumed do
      word "box"
      g.pat false
    return .strangePat tokens
  else if ← ahead fun ts => opAhead "-" ts || literalAhead ts || wordAhead "const" ts then
    let start ← rangeBound g
    if ← ahead (opAhead "..") then rangeFrom g start else return valuePat start
  else if ← ahead fun ts => identAhead ts || ["ref", "mut", "self"].any (wordAhead · ts) then
    identPat g
  else if ← op? "&" then
    let mutable ← word? "mut"
    return .referencePat mutable (← g.pat false)
  else if ← ahead (groupAhead .paren) then parenPat g
  else if ← ahead (groupAhead .bracket) then slicePat g
  else if ← ahead fun ts => opAhead ".." ts && !opAhead "..." ts then rangeTo g
  else refusePat

def barAhead (ts : List Token) : Bool :=
  opAhead "|" ts && !opAhead "||" ts && !opAhead "|=" ts

/-- Patterns between bars where `bars` holds; a bar may also come first. -/
def pat (bars : Bool) : Parser Pat := do
  if !bars then return ← singlePat g
  let bar ← op? "|"
  let first ← singlePat g
  if bar || (← ahead barAhead) then
    let rest ← many do
      if !(← ahead barAhead) then return none
      op "|"
      return some (← singlePat g)
    return .orPat bar (ofList (first :: rest))
  else return first

end Bindery.Source.Grammar
