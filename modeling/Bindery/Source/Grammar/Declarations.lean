import Bindery.Source.Grammar.Statements

/-!
# Parts of items

Generic parameters and the rules on them, the signatures of functions, fields, and use trees.
-/
namespace Bindery.Source.Grammar

open Bindery.Source.Parser Bindery.Source.Tree

variable (g : Rules)

/-! Generic parameters -/

def itemParam : Parser (Tree (.one .genericParam)) := do
  let attrs ← outerAttributes g
  if ← ahead lifetimeAhead then lifetimeParam attrs
  else if ← ahead identAhead then typeParam g attrs
  else if ← ahead (wordAhead "const") then constParam g attrs
  else if ← ahead (wordAhead "_") then return .typeParam attrs (← anyWord) .nil false .absent
  else refuse [.lifetime, .identifier, .mark "const"]

/-- Generic parameters between angle brackets, if there are any. -/
def params? : Parser (Tree (.maybe .params)) := do
  if !(← op? "<") then return .absent
  let (elems, trailing) ← angled (itemParam g)
  op ">"
  return .present (.params (ofList elems) trailing)

/-- Whether an angle bracket behind a keyword opens parameters and no type. -/
def paramsAhead (ts : List Token) : Bool :=
  let second := pastTree ts
  let third := pastTree second
  opAhead "<" ts && (opAhead ">" second || opAhead "#" second || wordAhead "const" second ||
    ((lifetimeAhead second || identAhead second) &&
      (opAhead ">" third || opAhead "," third || colonAhead third || opAhead "=" third)))

/-! Rules on generic parameters -/

def ruleStops (ts : List Token) : Bool :=
  ts.isEmpty || groupAhead .brace ts || opAhead "," ts || opAhead ";" ts || colonAhead ts ||
    opAhead "=" ts

def whereRule : Parser (Tree (.one .whereRule)) := do
  if (← ahead lifetimeAhead) && (← second (opAhead ":")) then
    let name ← lifetime
    return .lifetimeRule name (← lifetimeBounds ruleStops)
  else
    let b ← binder? g
    let t ← g.type true
    op ":"
    let (bounds, trailing) ← chain (fun ts => !ruleStops ts) "+" (g.bound false true) false
    return .typeRule b t (ofList bounds) trailing

/-- The rules on generic parameters, if there are any. -/
def rules? : Parser (Tree (.maybe .rules)) := do
  if !(← word? "where") then return .absent
  if ← ahead paramsAhead then breach .rulesWithParameters
  let (elems, trailing) ← chain (fun ts => !ruleStops ts) "," (whereRule g) false
  return .present (.rules (ofList elems) trailing)

/-- Bounds up to a place that `stop` describes. -/
def boundsUpTo (stop : List Token → Bool) (consts : Bool) :
    Parser (Tree (.many .bound) × Bool) := do
  let (bounds, trailing) ← separated stop "+" (g.bound false consts)
  return (ofList bounds, trailing)

/-! Signatures -/

def selfParam (attrs : Tree (.many .attr)) : Parser (Tree (.one .param)) := do
  let reference ← op? "&"
  let l ← if reference then lifetime? else pure none
  let mutable ← word? "mut"
  word "self"
  let typed ← if reference then pure false else op? ":"
  let t ← if typed then pure (.present (← g.type true)) else pure .absent
  return .selfParam attrs reference l mutable t

def isSelf : Tree (.one .param) → Bool
  | .selfParam .. => true
  | _ => false

/-- A parameter, or what stands for any number of them and the comma behind it. -/
inductive ParamOrRest where
  | param (p : Tree (.one .param))
  | rest (r : Tree (.one .variadic))

/-- What stands for any number of parameters, behind its dots. -/
def paramRest (attrs : Tree (.many .attr)) (name : Tree (.maybe .pat)) : Parser ParamOrRest := do
  if ← atEnd then return .rest (.variadic attrs name false)
  op ","
  return .rest (.variadic attrs name true)

/-- A parameter whose name is missing has a type with arguments. -/
def paramOrRest : Parser ParamOrRest := do
  let attrs ← outerAttributes g
  if ← op? "..." then return ← paramRest attrs .absent
  if let some p ← attempt (selfParam g attrs) then return .param p
  if (← ahead identAhead) && (← second (opAhead "<")) then
    return .param (.param attrs .anyPat (← g.type true))
  let p ← g.pat false
  op ":"
  if ← op? "..." then return ← paramRest attrs (.present p)
  return .param (.param attrs p (← g.type true))

/-- The parameters of a function, whether a comma comes last, and what stands for any number of
parameters. `before` holds for each earlier parameter whether it is a receiver. -/
def paramsFrom (n : Nat) (before : List Bool) (trailing : Bool) :
    Parser (List (Tree (.one .param)) × Bool × Tree (.maybe .variadic)) :=
  match n with
  | 0 => throw .exhausted
  | n + 1 => do
    if ← atEnd then return ([], trailing, .absent)
    match ← paramOrRest g with
    | .rest r => return ([], trailing, .present r)
    | .param p =>
      if isSelf p && before.contains true then throw (.rule .secondReceiver false)
      if isSelf p && !before.isEmpty then throw (.rule .lateReceiver false)
      if ← atEnd then return ([p], false, .absent)
      op ","
      let (ps, more) ← paramsFrom n (isSelf p :: before) true
      return (p :: ps, more)

/-- A signature, and whether the word that says the function is safe stands in front of it. -/
def signatureFrom (safe : Bool) : Parser (Tree (.one .signature) × Bool) := do
  let constant ← word? "const"
  let async ← word? "async"
  let guarded ← word? "unsafe"
  let marked ← if safe && !guarded then word? "safe" else pure false
  let convention ← convention?
  word "fn"
  let name ← ident
  let ps ← params? g
  let (inputs, trailing, rest) ← delimited .paren do
    paramsFrom g ((← remaining).length + 1) [] false
  let output ← returnType g true
  let rs ← rules? g
  return (.signature ⟨constant, async, guarded, convention⟩ name ps (ofList inputs) trailing
    rest output rs, marked)

def signature : Parser (Tree (.one .signature)) := do return (← signatureFrom g false).1

/-! Fields -/

/-- The type of a field without a name may be declared in its place; it is kept as tokens. -/
def fieldType (unnamed : Bool) : Parser Ty := do
  let declared := fun ts => wordAhead "struct" ts ||
    (wordAhead "union" ts && groupAhead .brace (pastTree ts))
  if unnamed && (← ahead declared) then
    let (_, tokens) ← consumed do
      discard anyWord
      delimited .brace (listed g.field)
    return .strangeType tokens
  else g.type true

def namedField : Parser (Tree (.one .field)) := do
  let attrs ← outerAttributes g
  let vis ← visibility
  let unnamed ← ahead (wordAhead "_")
  let name ← if unnamed then anyWord else ident
  op ":"
  return .field attrs vis (some name) (← fieldType g unnamed)

def plainField : Parser (Tree (.one .field)) := do
  let attrs ← outerAttributes g
  let vis ← visibility
  return .field attrs vis none (← g.type true)

def namedFields : Parser (Tree (.one .fields)) := do
  let (elems, trailing) ← delimited .brace (listed (namedField g))
  return .namedFields (ofList elems) trailing

def plainFields : Parser (Tree (.one .fields)) := do
  let (elems, trailing) ← delimited .paren (listed (plainField g))
  return .plainFields (ofList elems) trailing

/-- The fields of a struct and the rules on its parameters, up to its end. -/
def structBody : Parser (Tree (.one .fields) × Tree (.maybe .rules)) := do
  if ← ahead (groupAhead .paren) then
    let fields ← plainFields g
    let rs ← rules? g
    if ← op? ";" then return (fields, rs)
    else refuse (if rs.isAbsent then [.mark "where", .mark ";"] else [.mark ";"])
  else
    let rs ← rules? g
    if ← ahead (groupAhead .brace) then return (← namedFields g, rs)
    else if ← op? ";" then return (.unitFields, rs)
    else if rs.isAbsent then refuse [.mark "where", .group .paren, .group .brace, .mark ";"]
    else refuse [.group .brace, .mark ";"]

/-- A visibility in front of a variant means nothing. -/
def variant : Parser (Tree (.one .variant)) := do
  let attrs ← outerAttributes g
  discard visibility
  let name ← ident
  let fields ←
    if ← ahead (groupAhead .brace) then namedFields g
    else if ← ahead (groupAhead .paren) then plainFields g
    else pure .unitFields
  let value ← if ← op? "=" then pure (.present (← g.expr true)) else pure .absent
  return .variant attrs name fields value

/-! Use trees -/

/-- A word that a path of a use declaration may have comes next. -/
def usedWordAhead (ts : List Token) : Bool :=
  identAhead ts || ["self", "super", "crate", "try"].any (wordAhead · ts)

/-- The other name that a use declaration gives. -/
def otherName : Parser Ident := do
  if ← ahead fun ts => identAhead ts || wordAhead "_" ts then anyWord else refuse [.newName]

/-- A use tree, at most `n` deep; none if a path in a group starts at the root. `unrooted` says that
no earlier part starts there, so that a part of a group may. -/
def useTree (n : Nat) (unrooted : Bool) : Parser (Option UseTree) :=
  match n with
  | 0 => throw .exhausted
  | n + 1 => do
    if ← ahead usedWordAhead then
      let name ← anyWord
      if ← op? "::" then return (← useTree n false).map (.path name)
      else if ← word? "as" then return some (.rename name (← otherName))
      else return some (.name name)
    else if ← op? "*" then return some .glob
    else if ← ahead (groupAhead .brace) then
      let (items, trailing) ← delimited .brace do
        listed do
          let rooted ← if unrooted then op? "::" else pure false
          let tree ← useTree n (unrooted && !rooted)
          return if rooted then none else tree
      return (items.mapM id).map (.group · trailing)
    else refuse [.identifier, .mark "self", .mark "super", .mark "crate", .mark "try", .mark "*",
      .group .brace]

end Bindery.Source.Grammar
