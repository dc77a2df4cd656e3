import Bindery.Source.Grammar.Operators
import Bindery.Source.Grammar.Patterns

/-!
# Expressions
-/
namespace Bindery.Source.Grammar

open Bindery.Source.Parser Bindery.Source.Tree

variable (g : Rules)

/-! Operands followed by calls, fields and the like -/

def dotAhead (ts : List Token) : Bool := opAhead "." ts && !opAhead ".." ts

/-- The parts of a fraction, such as `0.1`, and whether a dot comes last. -/
def fractionParts (text : String) : List String × Bool :=
  let parts := text.splitOn "."
  if parts.getLast? == some "" then (parts.dropLast, true) else (parts, false)

def arguments : Parser (List Expr × Bool) := delimited .paren (listed (g.expr true))

/-- The name behind a dot, and the arguments of a method. -/
def afterDot (e : Expr) : Parser Expr := do
  if ← word? "await" then return .awaitExpr e
  match ← member with
  | .position n => return .fieldExpr e (.position n)
  | .name name =>
    let typeArgs ← if ← ahead (opAhead "::") then angleArguments g else pure .noArgs
    let generic := match typeArgs with
      | .noArgs => false
      | _ => true
    if generic || (← ahead (groupAhead .paren)) then
      let (args, trailing) ← arguments g
      return .methodExpr e name typeArgs (ofList args) trailing
    else return .fieldExpr e (.name name)

/-- What follows a dot. Two positions may read as one fraction. -/
def dotted (e : Expr) : Parser Expr := do
  match ← literal? Literal.isFraction with
  | none => afterDot g e
  | some text =>
    let (parts, more) := fractionParts text
    let e ← parts.foldlM (fun e part => return .fieldExpr e (.position (← position part))) e
    if more then afterDot g e else return e

/-- Calls, fields, indices and question marks behind an operand, at most `n` of them. -/
def trailers (n : Nat) (e : Expr) : Parser Expr :=
  match n with
  | 0 => throw .exhausted
  | n + 1 => do
    if ← ahead (groupAhead .paren) then
      let (args, trailing) ← arguments g
      trailers n (.callExpr e (ofList args) trailing)
    else if (← ahead dotAhead) && !isRange e then
      op "."
      trailers n (← dotted g e)
    else if ← ahead (groupAhead .bracket) then
      let i ← delimited .bracket (g.expr true)
      trailers n (.indexExpr e i)
    else if (← ahead (opAhead "?")) && !isRange e then
      op "?"
      trailers n (.tryExpr e)
    else return e

def trailing (e : Expr) : Parser Expr := do trailers g ((← remaining).length + 1) e

/-! Operators -/

/-- The right operand of an operator of some strength: an operand and the stronger operators behind
it. -/
def rightFrom (n : Nat) (structs : Bool) (s : Strength) (e : Expr) : Parser Expr :=
  match n with
  | 0 => throw .exhausted
  | n + 1 => do
    let next := strengthAhead (← remaining)
    if next.level > s.level || (next == .assign && s == .assign) then
      let before := (← remaining).length
      let e ← g.climb structs next e
      if (← remaining).length == before then return e
      rightFrom n structs s e
    else return e

def right (structs : Bool) (s : Strength) : Parser Expr := do
  let e ← g.unary structs
  rightFrom g ((← remaining).length + 1) structs s e

/-- Operators behind which a range without an end would make no sense. -/
def rangeFollowers : List String :=
  ["=", "+", "/", "%", "^", ">", "<=", "!=", "-=", "*=", "&=", "|=", "<<="]

/-- Places where a range has no end. -/
def rangeStops (structs : Bool) (ts : List Token) : Bool :=
  ts.isEmpty || opAhead "," ts || opAhead ";" ts || dotAhead ts || opAhead "?" ts ||
    opAhead "=>" ts || (!structs && groupAhead .brace ts) ||
    rangeFollowers.any (opAhead · ts) || wordAhead "as" ts

def rangeEnd (structs closed : Bool) : Parser (Tree (.maybe .expr)) := do
  if !closed && (← ahead (rangeStops structs)) then return .absent
  else return .present (← right g structs .range)

/-- What a cast cannot be followed by. -/
def castFollower (ts : List Token) : Option String :=
  let behind := pastTree ts
  if dotAhead ts then
    if wordAhead "await" behind then some "`.await`"
    else if identAhead behind &&
        (groupAhead .paren (pastTree behind) || opAhead "::" (pastTree behind)) then
      some "a method call"
    else some "a field access"
  else if opAhead "?" ts then some "`?`"
  else if groupAhead .bracket ts then some "indexing"
  else if groupAhead .paren ts then some "a function call"
  else none

/-- The operators of at least the given strength behind an operand, at most `n` of them. -/
def climbFrom (n : Nat) (structs : Bool) (least : Strength) (left : Expr) : Parser Expr :=
  match n with
  | 0 => throw .exhausted
  | n + 1 => do
    if isRange left then return left
    let ts ← remaining
    match operatorAhead ts with
    | some (sign, s) =>
      if s.level < least.level then return left
      if s == .compare && isComparison left then breach .chainedComparison
      op sign
      climbFrom n structs least (.binaryExpr left sign (← right g structs s))
    | none =>
      if least.level ≤ Strength.assign.level && assignAhead ts then
        op "="
        climbFrom n structs least (.assignExpr left (← right g structs .assign))
      else if least.level ≤ Strength.range.level && opAhead ".." ts then
        let closed ← rangeLimits
        climbFrom n structs least (.rangeExpr (.present left) closed (← rangeEnd g structs closed))
      else if least.level ≤ Strength.cast.level && wordAhead "as" ts then
        word "as"
        let t ← g.type false
        match castFollower (← remaining) with
        | some follower => breach (.castFollowed follower)
        | none => climbFrom n structs least (.castExpr left t)
      else return left

def climb (structs : Bool) (least : Strength) (left : Expr) : Parser Expr := do
  climbFrom g ((← remaining).length + 1) structs least left

/-! Operands -/

/-- Something like a value may come next. -/
def exprStarts (ts : List Token) : Bool :=
  (anyWordAhead ts && !wordAhead "as" ts) || groupStarts ts || literalAhead ts ||
    bangAhead ts || (opAhead "-" ts && !opAhead "-=" ts && !opAhead "->" ts) ||
    (opAhead "*" ts && !opAhead "*=" ts) || (opAhead "|" ts && !opAhead "|=" ts) ||
    (opAhead "&" ts && !opAhead "&=" ts) || opAhead ".." ts ||
    (opAhead "<" ts && !opAhead "<=" ts && !opAhead "<<=" ts) || opAhead "::" ts ||
    lifetimeAhead ts || opAhead "#" ts

/-- The value behind a keyword, if one follows. -/
def value? : Parser (Tree (.maybe .expr)) := do
  if ← ahead exprStarts then return .present (← g.expr true) else return .absent

def fieldValue : Parser (Tree (.one .fieldValue)) := do
  let attrs ← outerAttributes g
  match ← member with
  | .name i =>
    if ← op? ":" then return .fieldValue attrs (.name i) (.present (← g.expr true))
    else return .fieldValue attrs (.name i) .absent
  | m =>
    op ":"
    return .fieldValue attrs m (.present (← g.expr true))

/-- The fields of a struct expression, whether a comma comes last, and what follows two dots. -/
def fieldValues (n : Nat) (trailing : Bool) :
    Parser (List (Tree (.one .fieldValue)) × Bool × Bool × Tree (.maybe .expr)) :=
  match n with
  | 0 => throw .exhausted
  | n + 1 => do
    if ← atEnd then return ([], trailing, false, .absent)
    if ← op? ".." then
      if ← atEnd then return ([], trailing, true, .absent)
      else return ([], trailing, true, .present (← g.expr true))
    let field ← fieldValue g
    if ← atEnd then return ([field], false, false, .absent)
    op ","
    let (fields, more) ← fieldValues n true
    return (field :: fields, more)

/-- A path, or what it begins: a macro invocation or a struct. -/
def placeExpr (structs : Bool) : Parser Expr := do
  let p ← place g true
  if let (some names, true) := (simplePlace? p, ← ahead bangAhead) then
    return .macroExpr (← macroRest names)
  if structs && (← ahead (groupAhead .brace)) then
    let (fields, trailing, dots, base) ← delimited .brace do
      fieldValues g ((← remaining).length + 1) false
    return .structExpr p (ofList fields) trailing dots base
  else return .pathExpr p

def parenExpr : Parser Expr := do
  let (elems, trailing) ← delimited .paren (listed (g.expr true))
  match elems with
  | [e] => return if trailing then .tupleExpr (ofList elems) true else .parenExpr e
  | _ => return .tupleExpr (ofList elems) trailing

def bracketExpr : Parser Expr := delimited .bracket do
  if ← atEnd then return .arrayExpr .nil false
  let first ← g.expr true
  if ← atEnd then return .arrayExpr (ofList [first]) false
  else if ← op? "," then
    let (rest, trailing) ← listed (g.expr true)
    return .arrayExpr (ofList (first :: rest)) (rest.isEmpty || trailing)
  else if ← op? ";" then return .repeatExpr first (← g.expr true)
  else refuse [.mark ",", .mark ";"]

/-- A pattern with attributes in front of it. What is kept as tokens takes none. -/
def attributedPat (attrs : Tree (.many .attr)) (p : Pat) : Pat :=
  if attrs.isNil then p
  else match p with
    | .strangePat ts => .strangePat ts
    | p => .attributedPat attrs p

def closureParam : Parser Pat := do
  let attrs ← outerAttributes g
  let p ← g.pat false
  let p ← if ← op? ":" then pure (.typedPat p (← g.type true)) else pure p
  return attributedPat attrs p

def closureFlags : Parser ClosureFlags := do
  let constant ← word? "const"
  let pinned ← word? "static"
  let async ← word? "async"
  return ⟨constant, pinned, async, ← word? "move"⟩

def closure (structs : Bool) : Parser Expr := do
  let binder ← binder? g
  let flags ← closureFlags
  op "|"
  let (inputs, trailing) ← separated (opAhead "|") "," (closureParam g)
  op "|"
  if ← op? "->" then
    let t ← g.type true
    return .closureExpr binder flags (ofList inputs) trailing (.present t)
      (.blockExpr none .plain (← g.block false))
  else return .closureExpr binder flags (ofList inputs) trailing .absent (← g.expr structs)

/-- A condition, in which a brace opens the block behind it. -/
def condition : Parser Expr := g.expr false

/-- Branches, at most `n` of them. -/
def ifFrom (n : Nat) : Parser Expr :=
  match n with
  | 0 => throw .exhausted
  | n + 1 => do
    word "if"
    let cond ← condition g
    let body ← g.block false
    if !(← word? "else") then return .ifExpr cond body .absent
    if ← ahead (wordAhead "if") then return .ifExpr cond body (.present (← ifFrom n))
    else if ← ahead (groupAhead .brace) then
      return .ifExpr cond body (.present (.blockExpr none .plain (← g.block false)))
    else refuse [.mark "if", .group .brace]

def ifExpr : Parser Expr := do ifFrom g ((← remaining).length + 1)

def whileExpr (label : Option Ident) : Parser Expr := do
  word "while"
  let cond ← condition g
  return .whileExpr label cond (← g.block true)

def forExpr (label : Option Ident) : Parser Expr := do
  word "for"
  let p ← g.pat true
  word "in"
  let source ← condition g
  return .forExpr label p source (← g.block true)

def loopExpr (label : Option Ident) : Parser Expr := do
  word "loop"
  return .loopExpr label (← g.block true)

def labelled : Parser Expr := do
  let label ← lifetime
  op ":"
  if ← ahead (wordAhead "while") then whileExpr g (some label)
  else if ← ahead (wordAhead "for") then forExpr g (some label)
  else if ← ahead (wordAhead "loop") then loopExpr g (some label)
  else if ← ahead (groupAhead .brace) then
    return .blockExpr (some label) .plain (← g.block true)
  else refuse [.loopOrBlock]

/-- Expressions that end where their block does, so that no comma needs to follow them. -/
def endsItself (e : Expr) : Bool :=
  match withoutAttributes e with
  | .ifExpr .. => true
  | .matchExpr .. => true
  | .blockExpr _ (.async _) _ => false
  | .blockExpr .. => true
  | .whileExpr .. => true
  | .loopExpr .. => true
  | .forExpr .. => true
  | _ => false

def breakExpr (structs : Bool) : Parser Expr := do
  word "break"
  if (← ahead lifetimeAhead) && (← second (opAhead ":")) then
    discard (g.expr true)
    throw (.rule .labelledBreak false)
  let label ← lifetime?
  if (← ahead exprStarts) && (structs || !(← ahead (groupAhead .brace))) then
    return .breakExpr label (.present (← g.expr structs))
  else return .breakExpr label .absent

def letExpr (structs : Bool) : Parser Expr := do
  word "let"
  let p ← g.pat true
  op "="
  let left ← g.unary structs
  return .letExpr p (← g.climb structs .compare left)

def arms : Parser (List (Tree (.one .arm))) := many do
  if ← atEnd then return none
  let attrs ← outerAttributes g
  let p ← g.pat true
  let guard ← if ← word? "if" then pure (.present (← g.expr true)) else pure .absent
  op "=>"
  let e ← g.leading
  let comma ←
    if !endsItself e && !(← atEnd) then do
      op ","
      pure true
    else op? ","
  return some (.arm attrs p guard e comma)

def matchExpr : Parser Expr := do
  word "match"
  let e ← condition g
  delimited .brace do
    let attrs ← innerAttributes g
    return .matchExpr e attrs (ofList (← arms g))

/-- A closure that binds parameters of its own starts here. -/
def bindsAhead (ts : List Token) : Bool :=
  let behind := pastTree ts
  wordAhead "for" ts && opAhead "<" behind &&
    (lifetimeAhead (pastTree behind) || opAhead ">" (pastTree behind))

/-- An expression that may stand as a statement without a semicolon, if one starts here. -/
def blockLike : Parser (Option Expr) := do
  let ts ← remaining
  let braceBehind := groupAhead .brace (pastTree ts)
  if wordAhead "if" ts then return some (← ifExpr g)
  else if wordAhead "while" ts then return some (← whileExpr g none)
  else if wordAhead "for" ts && !bindsAhead ts then return some (← forExpr g none)
  else if wordAhead "loop" ts then return some (← loopExpr g none)
  else if wordAhead "match" ts then return some (← matchExpr g)
  else if wordAhead "try" ts && braceBehind then
    word "try"
    return some (.blockExpr none .trying (← g.block false))
  else if wordAhead "unsafe" ts then
    word "unsafe"
    return some (.blockExpr none .guarded (← g.block true))
  else if wordAhead "const" ts && braceBehind then
    word "const"
    return some (.blockExpr none .constant (← g.block true))
  else if groupAhead .brace ts then return some (.blockExpr none .plain (← g.block true))
  else if lifetimeAhead ts then return some (← labelled g)
  else return none

def asyncBlockAhead (ts : List Token) : Bool :=
  let behind := pastTree ts
  wordAhead "async" ts && (groupAhead .brace behind ||
    (wordAhead "move" behind && groupAhead .brace (pastTree behind)))

def closureAhead (ts : List Token) : Bool :=
  let behind := pastTree ts
  opAhead "|" ts || wordAhead "move" ts || bindsAhead ts ||
    (wordAhead "const" ts && !groupAhead .brace behind) || wordAhead "static" ts ||
    (wordAhead "async" ts && (opAhead "|" behind || wordAhead "move" behind))

/-- Whether a path starts here; one may begin with a word that usually starts a block. -/
def valuePathAhead (ts : List Token) : Bool :=
  let behind := pastTree ts
  pathStarts ts || (wordAhead "try" ts && (opAhead "!" behind || opAhead "::" behind))

/-- Operands that are kept as tokens. -/
def strangeAtom? : Parser (Option Expr) := do
  let start ← remaining
  if wordAhead "builtin" start && opAhead "#" (pastTree start) then
    word "builtin"
    op "#"
    discard ident
    discard (group .paren)
    return some (.strangeExpr (← since start))
  else if ← word? "become" then
    discard (g.expr true)
    return some (.strangeExpr (← since start))
  else return none

/-- An operand without anything behind it. -/
def atom (structs : Bool) : Parser Expr := do
  let ts ← remaining
  if literalAhead ts then return .literalExpr (← literal)
  if asyncBlockAhead ts then
    word "async"
    let owned ← word? "move"
    return .blockExpr none (.async owned) (← g.block false)
  if closureAhead ts then return ← closure g structs
  if let some e ← strangeAtom? g then return e
  if valuePathAhead ts then return ← placeExpr g structs
  if groupAhead .paren ts then return ← parenExpr g
  if wordAhead "break" ts then return ← breakExpr g structs
  if ← word? "continue" then return .continueExpr (← lifetime?)
  if ← word? "return" then return .returnExpr (← value? g)
  if groupAhead .bracket ts then return ← bracketExpr g
  if wordAhead "let" ts then return ← letExpr g structs
  if ← word? "yield" then return .yieldExpr (← value? g)
  if opAhead ".." ts then
    let closed ← rangeLimits
    return .rangeExpr .absent closed (← rangeEnd g structs closed)
  if ← word? "_" then return .inferredExpr
  match ← blockLike g with
  | some e => return e
  | none => refuse [.expression]

/-- The address of a place as a pointer is wanted. -/
def rawAhead (ts : List Token) : Bool :=
  wordAhead "raw" ts && (wordAhead "mut" (pastTree ts) || wordAhead "const" (pastTree ts))

/-- What follows an ampersand. -/
def reference (structs : Bool) : Parser Expr := do
  if ← ahead rawAhead then
    word "raw"
    let mutable ← word? "mut"
    if !mutable then word "const"
    return .addressExpr mutable (← g.unary structs)
  else
    let mutable ← word? "mut"
    return .referenceExpr mutable (← g.unary structs)

def unary (structs : Bool) : Parser Expr := do
  let start ← remaining
  let attrs ← outerAttributes g
  if ← op? "&" then return withAttributes attrs (← reference g structs)
  else if ← op? "*" then return withAttributes attrs (.unaryExpr '*' (← g.unary structs))
  else if ← op? "!" then return withAttributes attrs (.unaryExpr '!' (← g.unary structs))
  else if ← op? "-" then return withAttributes attrs (.unaryExpr '-' (← g.unary structs))
  else
    match ← trailing g (← atom g structs) with
    | .strangeExpr _ => return .strangeExpr (← since start)
    | e =>
      if !attrs.isNil && isRange e then throw (.rule .attributeOnRange false)
      return withAttributes attrs e

/-- An expression at the start of a statement or of the body of an arm: one that ends in a block
takes no operators. -/
def leading : Parser Expr := do
  let attrs ← outerAttributes g
  match ← blockLike g with
  | some e =>
    if ← ahead fun ts => dotAhead ts || opAhead "?" ts then
      climb g true .weakest (withAttributes attrs (← trailing g e))
    else return withAttributes attrs e
  | none => climb g true .weakest (withAttributes attrs (← unary g true))

def expr (structs : Bool) : Parser Expr := do climb g structs .weakest (← unary g structs)

end Bindery.Source.Grammar
