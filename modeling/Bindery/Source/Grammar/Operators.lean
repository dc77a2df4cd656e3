import Bindery.Source.Grammar.Basic

/-!
# Binary operators

Operators of one strength group to the left, except assignments. Comparisons do not chain.
-/
namespace Bindery.Source.Grammar

open Bindery.Source.Parser Bindery.Source.Tree

/-- The operators between two operands, longer spellings before their beginnings. -/
def binaryOperators : List (String × Strength) := [
  ("+=", .assign), ("-=", .assign), ("*=", .assign), ("/=", .assign), ("%=", .assign),
  ("^=", .assign), ("&=", .assign), ("|=", .assign), ("<<=", .assign), (">>=", .assign),
  ("&&", .and), ("||", .or), ("<<", .shift), (">>", .shift), ("==", .compare), ("<=", .compare),
  ("!=", .compare), (">=", .compare), ("+", .sum), ("-", .sum), ("*", .product), ("/", .product),
  ("%", .product), ("^", .bitXor), ("&", .bitAnd), ("|", .bitOr), ("<", .compare),
  (">", .compare)]

def strengthOf (op : String) : Strength := (binaryOperators.lookup op).getD .weakest

/-- The operator that comes next. -/
def operatorAhead (ts : List Token) : Option (String × Strength) :=
  binaryOperators.find? fun (op, _) => opAhead op ts

def assignAhead (ts : List Token) : Bool := opAhead "=" ts && !opAhead "=>" ts

def strengthAhead (ts : List Token) : Strength :=
  match operatorAhead ts with
  | some (_, s) => s
  | none =>
    if assignAhead ts then .assign
    else if opAhead ".." ts then .range
    else if wordAhead "as" ts then .cast
    else .weakest

/-- An expression without the attributes in front of it. -/
def withoutAttributes : Expr → Expr
  | .attributed _ e => e
  | e => e

def isRange (e : Expr) : Bool :=
  match withoutAttributes e with
  | .rangeExpr .. => true
  | _ => false

def isComparison (e : Expr) : Bool :=
  match withoutAttributes e with
  | .binaryExpr _ op _ => strengthOf op == .compare
  | _ => false

/-- An expression with more attributes in front of it. What is kept as tokens takes none. -/
def withAttributes (attrs : Tree (.many .attr)) (e : Expr) : Expr :=
  if attrs.isNil then e
  else match e with
    | .strangeExpr ts => .strangeExpr ts
    | .attributed more e => .attributed (ofList (attrs.toList ++ more.toList)) e
    | e => .attributed attrs e

end Bindery.Source.Grammar
