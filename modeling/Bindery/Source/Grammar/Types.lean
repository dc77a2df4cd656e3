import Bindery.Source.Grammar.Attributes

/-!
# Types and paths
-/
namespace Bindery.Source.Grammar

open Bindery.Source.Parser Bindery.Source.Tree

variable (g : Rules)

/-! What may start a type, in the order in which it is reported. -/

def afterBinder : List Wanted :=
  [.identifier, .mark "fn", .mark "unsafe", .mark "extern", .mark "super", .mark "self",
    .mark "Self", .mark "crate"]

def typeStarts : List Wanted :=
  [.mark "for", .group .paren, .mark "fn", .mark "unsafe", .mark "extern", .identifier,
    .mark "::", .mark "<", .mark "dyn", .group .bracket, .mark "*", .mark "&", .mark "!",
    .mark "impl", .mark "_", .lifetime]

/-! Parameters -/

/-- Lifetimes a lifetime outlives. -/
def lifetimeBounds (stop : List Token → Bool) : Parser Outlived := do
  if !(← op? ":") then return {}
  let (names, trailing) ← chain (fun ts => !stop ts) "+" lifetime false
  return ⟨names, trailing⟩

def closesParam (ts : List Token) : Bool := opAhead "," ts || opAhead ">" ts

/-- Whether the sort of a further bound comes next. -/
def boundStarts (allowConst : Bool) (ts : List Token) : Bool :=
  anyWordAhead ts || opAhead "::" ts || opAhead "?" ts || lifetimeAhead ts ||
    groupAhead .paren ts || (allowConst && groupAhead .bracket ts)

/-- The element type of a result, if one is given. -/
def returnType (plus : Bool) : Parser (Tree (.maybe .type)) := do
  if ← op? "->" then return .present (← g.type plus) else return .absent

/-- The arguments of a function in a path. -/
def callArguments : Parser (Tree (.one .arguments)) := do
  let (inputs, trailing) ← delimited .paren (listed (g.type true))
  return .callArgs (ofList inputs) trailing (← returnType g false)

/-- The names that an opaque type captures. -/
def capture : Parser (Tree (.one .bound)) := do
  word "use"
  op "<"
  let names ← upToClose ((← remaining).length + 1)
  op ">"
  return .captureBound names.1 names.2
where
  upToClose : Nat → Parser (List (Bool × Ident) × Bool)
    | 0 => throw .exhausted
    | n + 1 => do
      let name ←
        if ← ahead lifetimeAhead then pure (true, ← lifetime)
        else if ← ahead fun ts => identAhead ts || wordAhead "Self" ts then pure (false, ← anyWord)
        else if ← ahead (opAhead ">") then return ([], true)
        else refuse [.lifetime, .identifier, .mark ">"]
      if ← op? "," then
        let (names, trailing) ← upToClose n
        return (name :: names, trailing)
      else if ← ahead (opAhead ">") then return ([name], false)
      else refuse [.mark ",", .mark ">"]

/-! Paths -/

/-- The expression of a constant argument: a literal, a name or a block. -/
def constArgument : Parser Expr := do
  if ← ahead literalAhead then return .literalExpr (← literal)
  else if ← ahead identAhead then
    return .pathExpr (.plainPlace (.path false (ofList [.segment (← ident) .noArgs])))
  else if ← ahead (groupAhead .brace) then return .blockExpr none .plain (← g.block true)
  else refuse []

def constStarts (ts : List Token) : Bool := literalAhead ts || groupAhead .brace ts

/-- What follows the name of an associated item in an argument list, if that is what it is. -/
def associated (name : Ident) (args : Tree (.one .arguments)) :
    Parser (Option (Tree (.one .genericArg))) := do
  if ← op? "=" then
    if ← ahead constStarts then return some (.assocConstArg name args (← constArgument g))
    else return some (.assocTypeArg name args (← g.type true))
  else if ← op? ":" then
    let (bounds, trailing) ← chain (fun ts => !closesParam ts) "+" (g.bound false true) false
    return some (.constraintArg name args (ofList bounds) trailing)
  else return none

def genericArg : Parser (Tree (.one .genericArg)) := do
  if (← ahead lifetimeAhead) && !(← second (opAhead "+")) then
    return .lifetimeArg (← lifetime)
  else if ← ahead constStarts then return .constArg (← constArgument g)
  else
    let t ← g.type true
    match t with
    | .pathType (.plainPlace (.path false (.cons (.segment _ (.callArgs ..)) .nil))) =>
      return .typeArg t
    | .pathType (.plainPlace (.path false (.cons (.segment name args) .nil))) =>
      return (← associated g name args).getD (.typeArg t)
    | _ => return .typeArg t

def angleArguments : Parser (Tree (.one .arguments)) := do
  let turbofish ← op? "::"
  op "<"
  let (args, trailing) ← angled (genericArg g)
  op ">"
  return .angleArgs turbofish (ofList args) trailing

/-- Whether arguments come next: in an expression, only behind a double colon. -/
def argumentsAhead (inExpr : Bool) : Parser Bool := do
  let opens := fun ts => opAhead "<" ts && !opAhead "<=" ts && !opAhead "<<=" ts
  return (!inExpr && (← ahead opens)) || ((← ahead (opAhead "::")) && (← third (opAhead "<")))

def segment (inExpr : Bool) : Parser (Tree (.one .segment)) := do
  if ← ahead fun ts => ["super", "self", "crate", "try"].any (wordAhead · ts) then
    return .segment (← anyWord) .noArgs
  let name ← if ← ahead (wordAhead "Self") then anyWord else ident
  if ← argumentsAhead inExpr then return .segment name (← angleArguments g)
  else return .segment name .noArgs

/-- A double colon in front of parentheses does not belong to the path. -/
def path (inExpr : Bool) : Parser Path := do
  let rooted ← op? "::"
  let first ← segment g inExpr
  let rest ← many do
    if !(← ahead (opAhead "::")) || (← third (groupAhead .paren)) then return none
    op "::"
    return some (← segment g inExpr)
  return .path rooted (ofList (first :: rest))

/-- A path, or the item of a type between angle brackets. -/
def place (inExpr : Bool) : Parser Place := do
  if !(← op? "<") then return .plainPlace (← path g inExpr)
  let self ← g.type true
  let ofTrait ← if ← word? "as" then pure (.present (← path g false)) else pure .absent
  op ">"
  op "::"
  let first ← segment g inExpr
  let rest ← many do
    if !(← op? "::") then return none
    return some (← segment g inExpr)
  return .itemPlace self ofTrait (ofList (first :: rest))

/-- The names of a path without arguments. -/
def simple? : Path → Option SimplePath
  | .path rooted segments => do
    let names ← segments.toList.mapM fun
      | .segment name .noArgs => some name
      | .segment _ _ => none
    return ⟨rooted, names⟩

/-! Bounds -/

def lifetimeParam (attrs : Tree (.many .attr)) : Parser (Tree (.one .genericParam)) := do
  let name ← lifetime
  return .lifetimeParam attrs name (← lifetimeBounds closesParam)

def typeParam (attrs : Tree (.many .attr)) : Parser (Tree (.one .genericParam)) := do
  let name ← ident
  let (bounds, trailing) ←
    if ← op? ":" then
      chain (fun ts => !closesParam ts && !opAhead "=" ts) "+" (g.bound false true) false
    else pure ([], false)
  let default ← if ← op? "=" then pure (.present (← g.type true)) else pure .absent
  return .typeParam attrs name (ofList bounds) trailing default

def constParam (attrs : Tree (.many .attr)) : Parser (Tree (.one .genericParam)) := do
  word "const"
  let name ← ident
  op ":"
  let t ← g.type true
  let default ← if ← op? "=" then pure (.present (← constArgument g)) else pure .absent
  return .constParam attrs name t default

/-- A parameter of a bound or of a function type. -/
def boundParam : Parser (Tree (.one .genericParam)) := do
  let attrs ← outerAttributes g
  if ← ahead identAhead then typeParam g attrs
  else if ← ahead lifetimeAhead then lifetimeParam attrs
  else if ← ahead (wordAhead "const") then constParam g attrs
  else refuse [.identifier, .lifetime, .mark "const"]

def binder : Parser (Tree (.one .binder)) := do
  word "for"
  op "<"
  let (elems, trailing) ← angled (boundParam g)
  op ">"
  return .forAll (ofList elems) trailing

def binder? : Parser (Tree (.maybe .binder)) := do
  if ← ahead (wordAhead "for") then return .present (← binder g) else return .absent

/-- Whether a segment has no arguments; empty brackets count as none. -/
def isBare : Tree (.one .segment) → Bool
  | .segment _ .noArgs => true
  | .segment _ (.angleArgs _ .nil _) => true
  | _ => false

def withArguments (args : Tree (.one .arguments)) : Tree (.one .segment) → Tree (.one .segment)
  | .segment name _ => .segment name args

/-- The path of a trait; only here its last segment may have the arguments of a function. -/
def traitPath : Parser Path := do
  match ← path g false with
  | .path rooted segments =>
    let names := segments.toList
    let callAhead ← do
      pure ((← ahead (groupAhead .paren)) ||
        ((← ahead (opAhead "::")) && (← third (groupAhead .paren))))
    match names.getLast? with
    | some last =>
      if isBare last && callAhead then
        discard (op? "::")
        let args ← callArguments g
        return .path rooted (ofList (names.dropLast ++ [withArguments args last]))
      else return .path rooted segments
    | none => return .path rooted segments

/-- A bound by a trait, without its parentheses; none if it can be read but not written. -/
def traitBound (consts paren : Bool) : Parser (Option (Tree (.one .bound))) := do
  let outer ← binder? g
  let conditional ← ahead (groupAhead .bracket)
  if conditional then
    delimited .bracket (word "const")
    if !consts then throw (.rule .maybeConstBound false)
  let constant ← if conditional then pure false else word? "const"
  if constant && !consts then throw (.rule .constBound false)
  let maybe ← op? "?"
  let binder ← if maybe && outer.isAbsent then binder? g else pure outer
  let p ← traitPath g
  if maybe && !binder.isAbsent then throw (.rule .binderOfMaybe false)
  if conditional || constant then return none
  else return some (.traitBound paren maybe binder p)

def bound (captures consts : Bool) : Parser (Tree (.one .bound)) := do
  if ← ahead lifetimeAhead then return .lifetimeBound (← lifetime)
  if ← ahead (wordAhead "use") then
    let b ← capture
    if !captures then throw (.rule .captureBound false)
    return b
  let (b, tokens) ← consumed do
    if ← ahead (groupAhead .paren) then delimited .paren (traitBound g consts true)
    else traitBound g consts false
  return b.getD (.strangeBound tokens)

/-- Bounds joined by plus signs, as long as another one starts, and whether a plus sign comes
last. -/
def bounds (plus captures consts : Bool) : Parser (List (Tree (.one .bound)) × Bool) := do
  let first ← bound g captures consts
  let more ← if plus then op? "+" else pure false
  if !more then return ([first], false)
  let (rest, trailing) ← chain (boundStarts consts) "+" (bound g captures consts) true
  return (first :: rest, trailing)

def isTraitBound : Tree (.one .bound) → Bool
  | .traitBound .. => true
  | _ => false

def isStrangeBound : Tree (.one .bound) → Bool
  | .strangeBound _ => true
  | _ => false

/-- The bounds of a trait object; lifetimes alone make none. -/
def objectBounds (marked plus : Bool) : Parser Ty := do
  let (bs, trailing) ← bounds g plus false false
  if !bs.any isTraitBound then throw (.rule .objectWithoutTrait false)
  return .objectType marked (ofList bs) trailing

/-! Types -/

def convention? : Parser (Option Convention) := do
  if !(← word? "extern") then return none
  if ← ahead textLiteralAhead then return some ⟨some (← literal)⟩ else return some ⟨none⟩

/-- A colon that is no double colon. -/
def colonAhead (ts : List Token) : Bool := opAhead ":" ts && !opAhead "::" ts

/-- An argument of a function type. The first one may be a receiver, which is kept as tokens if it
is mutable. -/
def fnTypeArg (attrs : Tree (.many .attr)) (first : Bool) : Parser (Tree (.one .namedType)) := do
  let start ← remaining
  let mutableAhead := fun ts => first && wordAhead "mut" ts && wordAhead "self" (pastTree ts)
  let mutable := mutableAhead start
  if mutable then word "mut"
  let named ← second colonAhead
  let isSelf := first && named && wordAhead "self" (← remaining)
  let name ←
    if named && (isSelf || (← ahead fun ts => identAhead ts || wordAhead "_" ts)) then do
      let name ← anyWord
      op ":"
      pure (some name)
    else pure none
  if !isSelf && (← ahead mutableAhead) then
    word "mut"
    word "self"
  else if mutable && name.isNone then word "self"
  else
    let t ← g.type true
    if !mutable then return .namedType attrs name t
  return .namedType attrs none (.strangeType (← since start))

/-- What stands for any number of arguments, at the end of a function type. -/
def variadic (attrs : Tree (.many .attr)) : Parser (Tree (.one .variadic)) := do
  let name ←
    if ← ahead identAhead then pure (.present (.identPat false false (← ident) .absent))
    else if ← word? "_" then pure (.present .anyPat)
    else pure .absent
  if !name.isAbsent then op ":"
  op "..."
  return .variadic attrs name (← op? ",")

/-- The arguments of a function type, whether a comma comes last, and what stands for any number of
arguments. -/
def fnTypeArgs (n : Nat) (first : Bool) (trailing : Bool) :
    Parser (List (Tree (.one .namedType)) × Bool × Tree (.maybe .variadic)) :=
  match n with
  | 0 => throw .exhausted
  | n + 1 => do
    if ← atEnd then return ([], trailing, .absent)
    let attrs ← outerAttributes g
    if (← ahead (opAhead "...")) ||
        ((← ahead fun ts => identAhead ts || wordAhead "_" ts) && (← second (opAhead ":")) &&
          (← third (opAhead "..."))) then
      return ([], trailing, .present (← variadic attrs))
    let arg ← fnTypeArg g attrs first
    if ← atEnd then return ([arg], false, .absent)
    op ","
    let (args, more) ← fnTypeArgs n false true
    return (arg :: args, more)

def fnType (binder : Tree (.maybe .binder)) : Parser Ty := do
  let guarded ← word? "unsafe"
  let convention ← convention?
  word "fn"
  let (inputs, trailing, rest) ← delimited .paren do
    fnTypeArgs g ((← remaining).length + 1) true false
  return .fnType binder guarded convention (ofList inputs) trailing rest (← returnType g false)

/-- The bound that a type in parentheses stands for, in front of a plus sign. -/
def boundOfParen? : Ty → Option (Tree (.one .bound))
  | .pathType (.plainPlace p) => some (.traitBound true false .absent p)
  | .objectType false (.cons (.traitBound _ maybe b p) .nil) false =>
    some (.traitBound true maybe b p)
  | .objectType false (.cons b .nil) false => some b
  | _ => none

/-- Bounds each behind a plus sign. -/
def moreBounds : Parser (List (Tree (.one .bound))) := many do
  if !(← op? "+") then return none
  return some (← g.bound false false)

/-- What parentheses hold in front of a type. -/
inductive ParenContent where
  | type (t : Ty)
  | first (b : Tree (.one .bound))
  | complete (t : Ty)

def parenContent : Parser ParenContent := do
  if ← atEnd then return .complete (.tupleType .nil false)
  if ← ahead lifetimeAhead then
    return .complete (.parenType (← objectBounds g false true))
  if ← ahead (opAhead "?") then
    match ← traitBound g false true with
    | some b => return .first b
    | none => return .complete (.strangeType [])
  let first ← g.type true
  if !(← op? ",") then return .type first
  let (rest, trailing) ← listed (g.type true)
  return .complete (.tupleType (ofList (first :: rest)) (rest.isEmpty || trailing))

def parenType (plus : Bool) : Parser Ty := do
  match ← delimited .paren (parenContent g) with
  | .complete t => return t
  | .first b => return .objectType false (ofList (b :: (← moreBounds g))) false
  | .type t =>
    if plus && (← ahead (opAhead "+")) then
      match boundOfParen? t with
      | some b => return .objectType false (ofList (b :: (← moreBounds g))) false
      | none => return .parenType t
    else return .parenType t

/-- A path, or what a path begins: a macro invocation or a trait object. -/
def pathType (binder : Tree (.maybe .binder)) (plus : Bool) : Parser Ty := do
  match ← place g false with
  | .itemPlace self ofTrait rest => return .pathType (.itemPlace self ofTrait rest)
  | .plainPlace p =>
    match simple? p with
    | some names =>
      if ← ahead fun ts => opAhead "!" ts && !opAhead "!=" ts then
        return .macroType (← macroRest names)
    | none => pure ()
    if !binder.isAbsent || (plus && (← ahead (opAhead "+"))) then
      let first : Tree (.one .bound) := .traitBound false false binder p
      let more ← if plus then op? "+" else pure false
      if more then
        let (rest, trailing) ← chain (boundStarts false) "+" (g.bound false false) true
        return .objectType false (ofList (first :: rest)) trailing
      else return .objectType false (ofList [first]) false
    else return .pathType (.plainPlace p)

def pathStarts (ts : List Token) : Bool :=
  identAhead ts || ["super", "self", "Self", "crate"].any (wordAhead · ts) || opAhead "::" ts ||
    opAhead "<" ts

def fnStarts (ts : List Token) : Bool :=
  ["fn", "unsafe", "extern"].any (wordAhead · ts)

def bracketType : Parser Ty := delimited .bracket do
  let elem ← g.type true
  if ← op? ";" then return .arrayType elem (← g.expr true) else return .sliceType elem

def pointerType : Parser Ty := do
  op "*"
  if ← word? "const" then return .pointerType false (← g.type false)
  else if ← word? "mut" then return .pointerType true (← g.type false)
  else refuse [.mark "const", .mark "mut"]

def opaqueType (plus : Bool) : Parser Ty := do
  word "impl"
  let (bs, trailing) ← bounds g plus true true
  if !bs.any fun b => isTraitBound b || isStrangeBound b then
    throw (.rule .boundsWithoutTrait false)
  return .someType (ofList bs) trailing

def objectType (plus : Bool) : Parser Ty := do
  let (t, tokens) ← consumed do
    word "dyn"
    if ← op? "*" then
      discard (objectBounds g true plus)
      return none
    else return some (← objectBounds g true plus)
  return t.getD (.strangeType tokens)

def type (plus : Bool) : Parser Ty := do
  if ← ahead (wordAhead "for") then
    let b ← binder g
    if ← ahead fnStarts then fnType g (.present b)
    else if ← ahead fun ts => pathStarts ts && !opAhead "::" ts && !opAhead "<" ts then
      pathType g (.present b) plus
    else refuse afterBinder
  else if ← ahead (groupAhead .paren) then parenType g plus
  else if ← ahead fnStarts then fnType g .absent
  else if ← ahead pathStarts then pathType g .absent plus
  else if ← ahead (wordAhead "dyn") then objectType g plus
  else if ← ahead (groupAhead .bracket) then bracketType g
  else if ← ahead (opAhead "*") then pointerType g
  else if ← op? "&" then
    let l ← lifetime?
    let mutable ← word? "mut"
    return .referenceType l mutable (← g.type false)
  else if ← op? "!" then return .neverType
  else if ← ahead (wordAhead "impl") then opaqueType g plus
  else if ← word? "_" then return .inferredType
  else if ← ahead lifetimeAhead then objectBounds g false true
  else refuse typeStarts

end Bindery.Source.Grammar
