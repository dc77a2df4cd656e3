import Bindery.Source.Grammar.Basic

/-!
# Attributes, visibilities and macro invocations
-/
namespace Bindery.Source.Grammar

open Bindery.Source.Parser Bindery.Source.Tree

variable (g : Rules)

/-- Whether a word that a module path may have comes next. -/
def pathWordAhead (ts : List Token) : Bool :=
  identAhead ts || ["super", "self", "Self", "crate"].any (wordAhead · ts)

/-- A path without arguments. -/
def simplePath : Parser SimplePath := do
  let rooted ← op? "::"
  let (names, trailing) ← chain pathWordAhead "::" anyWord false
  if names.isEmpty then
    let name ← ident
    return ⟨rooted, [name]⟩
  if trailing then breach .pathEnd
  return ⟨rooted, names⟩

/-- The rest of a macro invocation after its path. -/
def macroRest (path : SimplePath) : Parser MacroCall := do
  op "!"
  let (d, input) ← anyGroup
  return ⟨path, d, input⟩

def macroCall : Parser MacroCall := do macroRest (← simplePath)

def groupStarts (ts : List Token) : Bool :=
  groupAhead .paren ts || groupAhead .bracket ts || groupAhead .brace ts

/-- A literal that is all that is left, with its sign, or an expression. -/
def attributeValue : Parser Expr := do
  let start ← remaining
  if literalAhead start then
    let text ← literal
    if ← atEnd then return .literalExpr text
    continueAt start
  if opAhead "#" start && groupAhead .bracket (pastTree start) then breach .attributeInAttribute
  g.expr true

/-- The content of an attribute's brackets. -/
def attributeBody (inner : Bool) : Parser Attribute := do
  let path ←
    if ← word? "unsafe" then pure (SimplePath.ofWord "unsafe") else simplePath
  if ← ahead groupStarts then
    let (d, ts) ← anyGroup
    return .listAttr inner path d ts
  else if ← ahead fun ts => opAhead "=" ts && !opAhead "==" ts && !opAhead "=>" ts then
    op "="
    return .valueAttr inner path (← attributeValue g)
  else return .markAttr inner path

/-- The attributes in front of something. -/
def outerAttributes : Parser (Tree (.many .attr)) := do
  let attrs ← many do
    if !(← op? "#") then return none
    return some (← delimited .bracket (attributeBody g false))
  return ofList attrs

/-- The attributes of what contains them, at its start. -/
def innerAttributes : Parser (Tree (.many .attr)) := do
  let attrs ← many do
    if !((← ahead (opAhead "#")) && (← second (opAhead "!"))) then return none
    op "#"
    op "!"
    return some (← delimited .bracket (attributeBody g true))
  return ofList attrs

/-- Parentheses after the word may also belong to a type that follows. -/
def visibility : Parser Visibility := do
  if !(← word? "pub") then return .inherited
  match ← remaining with
  | .group .paren inner :: rest =>
    if wordAhead "in" inner then
      return .within true (← delimited .paren do
        word "in"
        simplePath)
    match inner with
    | [.ident i] =>
      if ["crate", "self", "super"].any (⟨·, false⟩ == i) then
        continueAt rest
        return .within false (.ofName i)
      else return .everywhere
    | _ => return .everywhere
  | _ => return .everywhere

end Bindery.Source.Grammar
