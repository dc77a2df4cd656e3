import Bindery.Source.Grammar.Expressions

/-!
# Statements and blocks
-/
namespace Bindery.Source.Grammar

open Bindery.Source.Parser Bindery.Source.Tree

variable (g : Rules)

/-! How an expression ends -/

def endsInBraceTokens (ts : List Token) : Bool :=
  match ts.getLast? with
  | some (.group .brace _) => true
  | _ => false

/-- Whether a type ends in a brace. -/
def typeEndsInBrace : {s : Shape} → Tree s → Bool
  | _, .fnType _ _ _ _ _ _ t => typeEndsInBrace t
  | _, .someType bounds _ => typeEndsInBrace bounds
  | _, .objectType _ bounds _ => typeEndsInBrace bounds
  | _, .macroType m => m.delimiter == .brace
  | _, .pathType p => typeEndsInBrace p
  | _, .pointerType _ t => typeEndsInBrace t
  | _, .referenceType _ _ t => typeEndsInBrace t
  | _, .strangeType ts => endsInBraceTokens ts
  | _, .traitBound _ _ _ p => typeEndsInBrace p
  | _, .strangeBound ts => endsInBraceTokens ts
  | _, .plainPlace p => typeEndsInBrace p
  | _, .itemPlace _ _ rest => typeEndsInBrace rest
  | _, .path _ segments => typeEndsInBrace segments
  | _, .segment _ args => typeEndsInBrace args
  | _, .callArgs _ _ t => typeEndsInBrace t
  | _, .cons x rest => if rest.isNil then typeEndsInBrace x else typeEndsInBrace rest
  | _, .present x => typeEndsInBrace x
  | _, _ => false

/-- Whether an expression ends in a brace, so that `else` cannot follow. -/
def endsInBrace : {s : Shape} → Tree s → Bool
  | _, .ifExpr .. => true
  | _, .matchExpr .. => true
  | _, .blockExpr .. => true
  | _, .structExpr .. => true
  | _, .whileExpr .. => true
  | _, .forExpr .. => true
  | _, .loopExpr .. => true
  | _, .macroExpr m => m.delimiter == .brace
  | _, .strangeExpr ts => endsInBraceTokens ts
  | _, .castExpr _ t => typeEndsInBrace t
  | _, .attributed _ e => endsInBrace e
  | _, .assignExpr _ e => endsInBrace e
  | _, .binaryExpr _ _ e => endsInBrace e
  | _, .closureExpr _ _ _ _ _ e => endsInBrace e
  | _, .letExpr _ e => endsInBrace e
  | _, .addressExpr _ e => endsInBrace e
  | _, .referenceExpr _ e => endsInBrace e
  | _, .unaryExpr _ e => endsInBrace e
  | _, .breakExpr _ e => endsInBrace e
  | _, .returnExpr e => endsInBrace e
  | _, .yieldExpr e => endsInBrace e
  | _, .rangeExpr _ _ e => endsInBrace e
  | _, .present x => endsInBrace x
  | _, _ => false

/-- Whether a semicolon must follow an expression before another statement. -/
def needsSemicolon (e : Expr) : Bool :=
  match withoutAttributes e with
  | .macroExpr m => m.delimiter != .brace
  | e => !endsItself e

/-! Statements -/

def letStmt (attrs : Tree (.many .attr)) : Parser Stmt := do
  word "let"
  let p ← g.pat false
  let p ← if ← op? ":" then pure (.typedPat p (← g.type true)) else pure p
  if ← op? "=" then
    let e ← g.expr true
    let diverges ← if endsInBrace e then pure false else word? "else"
    let otherwise ← if diverges then pure (.present (← g.block false)) else pure .absent
    op ";"
    return .letStmt attrs p (.present e) otherwise
  else
    op ";"
    return .letStmt attrs p .absent .absent

/-- The function of a signature comes next, behind the words that may stand in front of it. `safe`
says that one of them may be that word. -/
def signatureAhead (safe : Bool) (ts : List Token) : Bool :=
  let ts := if wordAhead "const" ts then ts.drop 1 else ts
  let ts := if wordAhead "async" ts then ts.drop 1 else ts
  let ts := if wordAhead "unsafe" ts || (safe && wordAhead "safe" ts) then ts.drop 1 else ts
  let ts :=
    if wordAhead "extern" ts then
      if textLiteralAhead (ts.drop 1) then ts.drop 2 else ts.drop 1
    else ts
  wordAhead "fn" ts

/-- Whether a statement is an item, judged by its first words. -/
def itemAhead (ts : List Token) : Bool :=
  let second := pastTree ts
  let third := pastTree second
  let fnBehind := fun ts => ["unsafe", "extern", "fn"].any (wordAhead · ts)
  ["pub", "extern", "use", "fn", "mod", "type", "struct", "enum", "trait", "impl", "macro"].any
      (wordAhead · ts) ||
    (wordAhead "crate" ts && !opAhead "::" second) ||
    (wordAhead "static" ts && (wordAhead "mut" second || identAhead second)) ||
    (wordAhead "const" ts && !(groupAhead .brace second || wordAhead "move" second ||
      wordAhead "static" second || opAhead "|" second ||
      (wordAhead "async" second && !fnBehind third))) ||
    (wordAhead "unsafe" ts && !groupAhead .brace second) ||
    (wordAhead "async" ts && fnBehind second) ||
    (wordAhead "union" ts && identAhead second) ||
    (wordAhead "auto" ts && wordAhead "trait" second) ||
    (wordAhead "default" ts && (wordAhead "unsafe" second || wordAhead "impl" second))

/-- How the macro invocation at the start of a statement goes on, if there is one: as an item, or as
a statement of its own. -/
inductive MacroStart where
  | none
  | item
  | stmt

def macroStart : Parser MacroStart := do
  let start ← get
  match ← attempt simplePath with
  | Option.none => return .none
  | some _ =>
    let rest ← remaining
    set start
    if !opAhead "!" rest then return .none
    let input := rest.drop 1
    if identAhead input || wordAhead "try" input then return .item
    let behind := input.drop 1
    if groupAhead .brace input && !(dotAhead behind || opAhead "?" behind) then return .stmt
    return .none

/-- Puts attributes in front of the operand with which an expression begins. -/
def attachFirst (attrs : Tree (.many .attr)) : {s : Shape} → Tree s → Tree s
  | _, .assignExpr left right => .assignExpr (attachFirst attrs left) right
  | _, .binaryExpr left op right => .binaryExpr (attachFirst attrs left) op right
  | _, .castExpr e t => .castExpr (attachFirst attrs e) t
  | .one .expr, e => withAttributes attrs e
  | _, t => t

/-- The attributes of an expression, and the expression without them. -/
def splitAttributes : Expr → Tree (.many .attr) × Expr
  | .attributed attrs e => (attrs, e)
  | e => (.nil, e)

def exprStmt (attrs : Tree (.many .attr)) : Parser Stmt := do
  let e := attachFirst attrs (← g.leading)
  let semi ← op? ";"
  match splitAttributes e with
  | (attrs, .macroExpr m) =>
    if semi || m.delimiter == .brace then return .macroStmt attrs m semi
    else return .exprStmt e semi
  | _ => return .exprStmt e semi

def stmt : Parser Stmt := do
  let start ← get
  let attrs ← outerAttributes g
  match ← macroStart with
  | .stmt =>
    let m ← macroCall
    return .macroStmt attrs m (← op? ";")
  | .item =>
    set start
    return .itemStmt (← g.item)
  | .none =>
    if ← ahead (wordAhead "let") then letStmt g attrs
    else if ← ahead itemAhead then
      set start
      return .itemStmt (← g.item)
    else exprStmt g attrs

/-- A statement after which another one can only come behind a semicolon. -/
def isOpen : Stmt → Bool
  | .exprStmt e false => needsSemicolon e
  | .macroStmt _ m false => m.delimiter != .brace
  | _ => false

def stmts : Parser (Tree (.many .stmt)) := do
  let stmts ← many do
    if ← op? ";" then return some .emptyStmt
    if ← atEnd then return none
    let s ← stmt g
    if isOpen s && !(← atEnd) then breach .statementEnd
    return some s
  return ofList stmts

def block (marked : Bool) : Parser Block := delimited .brace do
  let attrs ← if marked then innerAttributes g else pure .nil
  return .block attrs (← stmts g)

end Bindery.Source.Grammar
