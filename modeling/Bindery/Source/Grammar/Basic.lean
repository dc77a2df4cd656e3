import Bindery.Source.Parser
import Bindery.Source.Syntax

/-!
# Grammar rules

A rule that refers back to a larger sort of syntax takes the rules one level below from a record, so
that no rule is recursive by itself. The level bounds how deeply syntax nests.
-/
namespace Bindery.Source

/-- Binding strength of operators, weakest first. -/
inductive Strength where
  | weakest
  | assign
  | range
  | or
  | and
  | let_
  | compare
  | bitOr
  | bitXor
  | bitAnd
  | shift
  | sum
  | product
  | cast
  deriving DecidableEq, Repr

def Strength.level : Strength → Nat
  | .weakest => 0
  | .assign => 1
  | .range => 2
  | .or => 3
  | .and => 4
  | .let_ => 5
  | .compare => 6
  | .bitOr => 7
  | .bitXor => 8
  | .bitAnd => 9
  | .shift => 10
  | .sum => 11
  | .product => 12
  | .cast => 13

/-- The rules for syntax that nests. Types may be followed by further bounds where `plus` holds,
expressions may begin a struct where `structs` holds, and blocks may begin with attributes of their
own where `marked` holds. -/
structure Rules where
  type : (plus : Bool) → Parser Ty
  bound : (captures consts : Bool) → Parser (Tree (.one .bound))
  expr : (structs : Bool) → Parser Expr
  unary : (structs : Bool) → Parser Expr
  /-- An expression at the start of a statement. -/
  leading : Parser Expr
  /-- The operators of at least the given strength that follow an operand. -/
  climb : (structs : Bool) → (least : Strength) → (left : Expr) → Parser Expr
  pat : (bars : Bool) → Parser Pat
  block : (marked : Bool) → Parser Block
  /-- A field with a name. -/
  field : Parser (Tree (.one .field))
  item : Parser Item

namespace Rules

/-- The rules below the lowest level. -/
def exhausted : Rules where
  type _ := throw .exhausted
  bound _ _ := throw .exhausted
  expr _ := throw .exhausted
  unary _ := throw .exhausted
  leading := throw .exhausted
  climb _ _ _ := throw .exhausted
  pat _ := throw .exhausted
  block _ := throw .exhausted
  field := throw .exhausted
  item := throw .exhausted

end Rules

end Bindery.Source
