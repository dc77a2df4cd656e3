import Bindery.Source.Literal
import Bindery.Source.Syntax

/-!
# The tokens of a syntax tree

Every tree is written by its tokens in grammar order. Only lifetimes move: in a list of generic
arguments or parameters they come before the others.
-/
namespace Bindery.Source

open Token (word operator lifetime)

/-- What the tokens of a tree of each shape are. -/
@[reducible] def Spelled : Shape → Type
  | .one _ => List Token
  | .many _ => List (List Token)
  | .maybe _ => Option (List Token)

def punct (c : Char) : List Token := [.punct c false]

/-- Joins parts with a separator, which also ends a non-empty list if `trailing` says so. -/
def separated (sep : List Token) (trailing : Bool) : List (List Token) → List Token
  | [] => []
  | [x] => x ++ if trailing then sep else []
  | x :: rest => x ++ sep ++ separated sep trailing rest

def commas (trailing : Bool) (xs : List (List Token)) : List Token :=
  separated (punct ',') trailing xs

def plusses (trailing : Bool) (xs : List (List Token)) : List Token :=
  separated (punct '+') trailing xs

/-- Tokens after a mark, if there are any. -/
def after (mark : List Token) : Option (List Token) → List Token
  | none => []
  | some ts => mark ++ ts

/-- What is in a list between a mark and another one; nothing if the list is empty. -/
def between (opening closing : List Token) (ts : List Token) : List Token :=
  if ts.isEmpty then [] else opening ++ ts ++ closing

def flagWord (present : Bool) (w : String) : List Token := if present then [word w] else []

def semicolon (present : Bool) : List Token := if present then punct ';' else []

def bracketed (ts : List Token) : List Token := [.group .bracket ts]

def parenthesized (ts : List Token) : List Token := [.group .paren ts]

def braced (ts : List Token) : List Token := [.group .brace ts]

/-! Paths and marks -/

def SimplePath.tokens (p : SimplePath) : List Token :=
  (if p.rooted then operator "::" else []) ++
    separated (operator "::") false (p.names.map fun n => [.ident n])

def MacroCall.tokens (m : MacroCall) : List Token :=
  m.path.tokens ++ punct '!' ++ [.group m.delimiter m.input]

/-- An attribute with the given content of its brackets. -/
def hashed (inner : Bool) (ts : List Token) : List Token :=
  punct '#' ++ (if inner then punct '!' else []) ++ bracketed ts

def Visibility.tokens : Visibility → List Token
  | .inherited => []
  | .everywhere => [word "pub"]
  | .within marked p => word "pub" :: parenthesized (flagWord marked "in" ++ p.tokens)

def Front.tokens (f : Front) : List Token := f.vis.tokens ++ flagWord f.default "default"

def Convention.tokens (c : Convention) : List Token :=
  word "extern" :: match c.name with
    | some name => Literal.tokens name
    | none => []

def conventionTokens : Option Convention → List Token
  | some c => c.tokens
  | none => []

def memberTokens : Member → List Token
  | .name i => [.ident i]
  | .position n => [.literal (toString n)]

def labelTokens : Option Ident → List Token
  | some l => lifetime l ++ punct ':'
  | none => []

def lifetimeTokens : Option Ident → List Token
  | some l => lifetime l
  | none => []

/-- A name in front of a type. -/
def nameTokens : Option Ident → List Token
  | some n => .ident n :: punct ':'
  | none => []

def FnFlags.tokens (f : FnFlags) : List Token :=
  flagWord f.constant "const" ++ flagWord f.async "async" ++ flagWord f.guarded "unsafe" ++
    conventionTokens f.convention

def ClosureFlags.tokens (f : ClosureFlags) : List Token :=
  flagWord f.constant "const" ++ flagWord f.pinned "static" ++ flagWord f.async "async" ++
    flagWord f.owned "move"

def BlockKind.tokens : BlockKind → List Token
  | .plain => []
  | .guarded => [word "unsafe"]
  | .constant => [word "const"]
  | .trying => [word "try"]
  | .async owned => word "async" :: flagWord owned "move"

def rangeMark (closed : Bool) : String := if closed then "..=" else ".."

mutual

def UseTree.tokens : UseTree → List Token
  | .path n rest => .ident n :: operator "::" ++ rest.tokens
  | .name n => [.ident n]
  | .rename n other => [.ident n, word "as", .ident other]
  | .glob => punct '*'
  | .group items trailing => braced (commas trailing (UseTree.tokensAll items))

def UseTree.tokensAll : List UseTree → List (List Token)
  | [] => []
  | t :: rest => t.tokens :: UseTree.tokensAll rest

end

/-! Generic arguments and parameters -/

/-- For each argument or parameter, whether it is a lifetime. -/
def lifetimesAmong : {s : Shape} → Tree s → List Bool
  | _, .cons x rest => isLifetime x :: lifetimesAmong rest
  | _, _ => []
where
  isLifetime {s : Shape} : Tree s → Bool
    | .lifetimeArg _ => true
    | .lifetimeParam .. => true
    | _ => false

/-- Marks every element of a list but the last, and the last if `trailing`. -/
def withCommas (trailing : Bool) : List α → List (α × Bool)
  | [] => []
  | [x] => [(x, trailing)]
  | x :: rest => (x, true) :: withCommas trailing rest

/-- Joins arguments, each with the comma that followed it; a comma is added where one is missing. -/
def joinArgs (ended : Bool) : List (List Token × Bool) → List Token
  | [] => []
  | (x, comma) :: rest =>
    (if ended then [] else punct ',') ++ x ++ (if comma then punct ',' else []) ++
      joinArgs comma rest

/-- Arguments with the lifetimes first. -/
def orderedArgs (lifetimes : List Bool) (trailing : Bool) (args : List (List Token)) :
    List Token :=
  let marked := lifetimes.zip (withCommas trailing args)
  joinArgs true ((marked.filter (·.1)).map (·.2) ++ (marked.filter (!·.1)).map (·.2))

def captureTokens (names : List (Bool × Ident)) : List (List Token) :=
  names.map fun (isLifetime, n) => if isLifetime then lifetime n else [.ident n]

def Outlived.tokens (o : Outlived) : List Token := plusses o.trailing (o.names.map lifetime)

/-- Bounds after a colon, if there are any. -/
def colonBounds (ts : List Token) : List Token := between (punct ':') [] ts

/-- Whether rules stand before the fields of an item. -/
def areNamed : Tree (.one .fields) → Bool
  | .namedFields .. => true
  | _ => false

/-- The parameters of a function, the last of which may stand for any number of them. -/
def paramTokens (inputs : List (List Token)) (trailing : Bool) (rest : Option (List Token)) :
    List Token :=
  parenthesized (commas (trailing || rest.isSome) inputs ++ rest.getD [])

def Tree.tokens : {s : Shape} → Tree s → Spelled s
  | _, .nil => []
  | _, .cons x rest => x.tokens :: rest.tokens
  | _, .absent => none
  | _, .present x => some x.tokens
  -- attributes
  | _, .markAttr inner p => hashed inner p.tokens
  | _, .listAttr inner p d input => hashed inner (p.tokens ++ [.group d input])
  | _, .valueAttr inner p value => hashed inner (p.tokens ++ punct '=' ++ value.tokens)
  -- types
  | _, .arrayType elem length => bracketed (elem.tokens ++ punct ';' ++ length.tokens)
  | _, .fnType binder guarded convention inputs trailing rest output =>
    after [] binder.tokens ++ flagWord guarded "unsafe" ++ conventionTokens convention ++
      [word "fn"] ++ paramTokens inputs.tokens trailing rest.tokens ++
      after (operator "->") output.tokens
  | _, .someType bounds trailing => word "impl" :: plusses trailing bounds.tokens
  | _, .inferredType => [word "_"]
  | _, .macroType m => m.tokens
  | _, .neverType => punct '!'
  | _, .parenType t => parenthesized t.tokens
  | _, .pathType p => p.tokens
  | _, .pointerType mutable t =>
    punct '*' ++ [word (if mutable then "mut" else "const")] ++ t.tokens
  | _, .referenceType l mutable t =>
    punct '&' ++ lifetimeTokens l ++ flagWord mutable "mut" ++ t.tokens
  | _, .sliceType t => bracketed t.tokens
  | _, .objectType marked bounds trailing =>
    flagWord marked "dyn" ++ plusses trailing bounds.tokens
  | _, .tupleType elems trailing => parenthesized (commas trailing elems.tokens)
  | _, .strangeType ts => ts
  | _, .namedType attrs name t => attrs.tokens.flatten ++ nameTokens name ++ t.tokens
  | _, .variadic attrs name trailing =>
    attrs.tokens.flatten ++ (match name.tokens with
      | some p => p ++ punct ':'
      | none => []) ++ operator "..." ++ if trailing then punct ',' else []
  -- paths
  | _, .path rooted segments =>
    (if rooted then operator "::" else []) ++ separated (operator "::") false segments.tokens
  | _, .segment name args => .ident name :: args.tokens
  | _, .noArgs => []
  | _, .angleArgs turbofish args trailing =>
    (if turbofish then operator "::" else []) ++ punct '<' ++
      orderedArgs (lifetimesAmong args) trailing args.tokens ++ punct '>'
  | _, .callArgs inputs trailing output =>
    parenthesized (commas trailing inputs.tokens) ++ after (operator "->") output.tokens
  | _, .plainPlace p => p.tokens
  | _, .itemPlace self ofTrait rest =>
    punct '<' ++ self.tokens ++ after [word "as"] ofTrait.tokens ++ punct '>' ++ operator "::" ++
      separated (operator "::") false rest.tokens
  | _, .lifetimeArg n => lifetime n
  | _, .typeArg t => t.tokens
  | _, .constArg e => e.tokens
  | _, .assocTypeArg n args t => .ident n :: args.tokens ++ punct '=' ++ t.tokens
  | _, .assocConstArg n args e => .ident n :: args.tokens ++ punct '=' ++ e.tokens
  | _, .constraintArg n args bounds trailing =>
    .ident n :: args.tokens ++ punct ':' ++ plusses trailing bounds.tokens
  -- bounds, generic parameters and the rules on them
  | _, .lifetimeBound n => lifetime n
  | _, .traitBound paren maybe binder p =>
    let body := (if maybe then punct '?' else []) ++ after [] binder.tokens ++ p.tokens
    if paren then parenthesized body else body
  | _, .captureBound names trailing =>
    word "use" :: punct '<' ++ commas trailing (captureTokens names) ++ punct '>'
  | _, .strangeBound ts => ts
  | _, .lifetimeParam attrs n bounds =>
    attrs.tokens.flatten ++ lifetime n ++ colonBounds bounds.tokens
  | _, .typeParam attrs n bounds trailing default =>
    attrs.tokens.flatten ++ [.ident n] ++ colonBounds (plusses trailing bounds.tokens) ++
      after (punct '=') default.tokens
  | _, .constParam attrs n t default =>
    attrs.tokens.flatten ++ [word "const", .ident n] ++ punct ':' ++ t.tokens ++
      after (punct '=') default.tokens
  | _, .params elems trailing =>
    between (punct '<') (punct '>') (orderedArgs (lifetimesAmong elems) trailing elems.tokens)
  | _, .forAll elems trailing =>
    word "for" :: punct '<' ++ commas trailing elems.tokens ++ punct '>'
  | _, .lifetimeRule n bounds => lifetime n ++ punct ':' ++ bounds.tokens
  | _, .typeRule binder t bounds trailing =>
    after [] binder.tokens ++ t.tokens ++ punct ':' ++ plusses trailing bounds.tokens
  | _, .rules elems trailing => between [word "where"] [] (commas trailing elems.tokens)
  -- expressions
  | _, .attributed attrs e => attrs.tokens.flatten ++ e.tokens
  | _, .arrayExpr elems trailing => bracketed (commas trailing elems.tokens)
  | _, .assignExpr left right => left.tokens ++ punct '=' ++ right.tokens
  | _, .awaitExpr e => e.tokens ++ punct '.' ++ [word "await"]
  | _, .binaryExpr left op right => left.tokens ++ operator op ++ right.tokens
  | _, .blockExpr label kind body => labelTokens label ++ kind.tokens ++ body.tokens
  | _, .breakExpr label value => word "break" :: lifetimeTokens label ++ after [] value.tokens
  | _, .callExpr callee args trailing =>
    callee.tokens ++ parenthesized (commas trailing args.tokens)
  | _, .castExpr e t => e.tokens ++ word "as" :: t.tokens
  | _, .closureExpr binder flags inputs trailing output body =>
    after [] binder.tokens ++ flags.tokens ++ punct '|' ++ commas trailing inputs.tokens ++
      punct '|' ++ after (operator "->") output.tokens ++ body.tokens
  | _, .continueExpr label => word "continue" :: lifetimeTokens label
  | _, .fieldExpr e m => e.tokens ++ punct '.' ++ memberTokens m
  | _, .forExpr label pat source body =>
    labelTokens label ++ word "for" :: pat.tokens ++ word "in" :: source.tokens ++ body.tokens
  | _, .ifExpr cond body otherwise =>
    word "if" :: cond.tokens ++ body.tokens ++ after [word "else"] otherwise.tokens
  | _, .indexExpr e i => e.tokens ++ bracketed i.tokens
  | _, .inferredExpr => [word "_"]
  | _, .letExpr pat e => word "let" :: pat.tokens ++ punct '=' ++ e.tokens
  | _, .literalExpr text => Literal.tokens text
  | _, .loopExpr label body => labelTokens label ++ word "loop" :: body.tokens
  | _, .macroExpr m => m.tokens
  | _, .matchExpr e attrs arms =>
    word "match" :: e.tokens ++ braced (attrs.tokens.flatten ++ arms.tokens.flatten)
  | _, .methodExpr receiver name typeArgs args trailing =>
    receiver.tokens ++ punct '.' ++ .ident name :: typeArgs.tokens ++
      parenthesized (commas trailing args.tokens)
  | _, .parenExpr e => parenthesized e.tokens
  | _, .pathExpr p => p.tokens
  | _, .rangeExpr left closed right =>
    after [] left.tokens ++ operator (rangeMark closed) ++ after [] right.tokens
  | _, .addressExpr mutable e =>
    punct '&' ++ [word "raw", word (if mutable then "mut" else "const")] ++ e.tokens
  | _, .referenceExpr mutable e => punct '&' ++ flagWord mutable "mut" ++ e.tokens
  | _, .repeatExpr e length => bracketed (e.tokens ++ punct ';' ++ length.tokens)
  | _, .returnExpr value => word "return" :: after [] value.tokens
  | _, .structExpr p fields trailing dots base =>
    p.tokens ++ braced (commas (trailing || dots) fields.tokens ++
      (if dots then operator ".." else []) ++ after [] base.tokens)
  | _, .tryExpr e => e.tokens ++ punct '?'
  | _, .tupleExpr elems trailing => parenthesized (commas trailing elems.tokens)
  | _, .unaryExpr op e => punct op ++ e.tokens
  | _, .whileExpr label cond body =>
    labelTokens label ++ word "while" :: cond.tokens ++ body.tokens
  | _, .yieldExpr value => word "yield" :: after [] value.tokens
  | _, .strangeExpr ts => ts
  | _, .fieldValue attrs m value =>
    attrs.tokens.flatten ++ memberTokens m ++ after (punct ':') value.tokens
  | _, .arm attrs pat guard body comma =>
    attrs.tokens.flatten ++ pat.tokens ++ after [word "if"] guard.tokens ++ operator "=>" ++
      body.tokens ++ if comma then punct ',' else []
  -- patterns
  | _, .attributedPat attrs p => attrs.tokens.flatten ++ p.tokens
  | _, .anyPat => [word "_"]
  | _, .constPat body => word "const" :: body.tokens
  | _, .identPat byRef mutable name sub =>
    flagWord byRef "ref" ++ flagWord mutable "mut" ++ .ident name :: after (punct '@') sub.tokens
  | _, .literalPat text => Literal.tokens text
  | _, .rangePat left closed right =>
    after [] left.tokens ++ operator (rangeMark closed) ++ after [] right.tokens
  | _, .macroPat m => m.tokens
  | _, .orPat bar cases =>
    (if bar then punct '|' else []) ++ separated (punct '|') false cases.tokens
  | _, .parenPat p => parenthesized p.tokens
  | _, .pathPat p => p.tokens
  | _, .referencePat mutable p => punct '&' ++ flagWord mutable "mut" ++ p.tokens
  | _, .restPat => operator ".."
  | _, .slicePat elems trailing => bracketed (commas trailing elems.tokens)
  | _, .structPat p fields trailing rest =>
    p.tokens ++ braced (commas (trailing || !rest.isAbsent) fields.tokens ++
      after [] rest.tokens)
  | _, .tuplePat elems trailing => parenthesized (commas trailing elems.tokens)
  | _, .tupleStructPat p elems trailing =>
    p.tokens ++ parenthesized (commas trailing elems.tokens)
  | _, .typedPat p t => p.tokens ++ punct ':' ++ t.tokens
  | _, .strangePat ts => ts
  | _, .fieldPat attrs m p => attrs.tokens.flatten ++ memberTokens m ++ punct ':' ++ p.tokens
  | _, .shortFieldPat attrs p => attrs.tokens.flatten ++ p.tokens
  | _, .otherFieldsPat attrs => attrs.tokens.flatten ++ operator ".."
  -- statements
  | _, .letStmt attrs pat value otherwise =>
    attrs.tokens.flatten ++ word "let" :: pat.tokens ++ after (punct '=') value.tokens ++
      after [word "else"] otherwise.tokens ++ punct ';'
  | _, .itemStmt i => i.tokens
  | _, .exprStmt e semi => e.tokens ++ semicolon semi
  | _, .macroStmt attrs m semi => attrs.tokens.flatten ++ m.tokens ++ semicolon semi
  | _, .emptyStmt => punct ';'
  | _, .block attrs stmts => braced (attrs.tokens.flatten ++ stmts.tokens.flatten)
  -- parts of items
  | _, .field attrs vis name t =>
    attrs.tokens.flatten ++ vis.tokens ++ nameTokens name ++ t.tokens
  | _, .unitFields => []
  | _, .namedFields elems trailing => braced (commas trailing elems.tokens)
  | _, .plainFields elems trailing => parenthesized (commas trailing elems.tokens)
  | _, .variant attrs name fields value =>
    attrs.tokens.flatten ++ .ident name :: fields.tokens ++ after (punct '=') value.tokens
  | _, .selfParam attrs reference l mutable t =>
    attrs.tokens.flatten ++ (if reference then punct '&' else []) ++ lifetimeTokens l ++
      flagWord mutable "mut" ++ [word "self"] ++ after (punct ':') t.tokens
  | _, .param attrs pat t => attrs.tokens.flatten ++ pat.tokens ++ punct ':' ++ t.tokens
  | _, .signature flags name ps inputs trailing rest output rs =>
    flags.tokens ++ [word "fn", .ident name] ++ after [] ps.tokens ++
      paramTokens inputs.tokens trailing rest.tokens ++ after (operator "->") output.tokens ++
      after [] rs.tokens
  | _, .members attrs items => braced (attrs.tokens.flatten ++ items.tokens.flatten)
  -- items
  | _, .constItem attrs front name t value =>
    attrs.tokens.flatten ++ front.tokens ++ [word "const", .ident name] ++ punct ':' ++
      t.tokens ++ after (punct '=') value.tokens ++ punct ';'
  | _, .enumItem attrs front name ps rs variants trailing =>
    attrs.tokens.flatten ++ front.tokens ++ [word "enum", .ident name] ++
      after [] ps.tokens ++ after [] rs.tokens ++
      braced (commas trailing variants.tokens)
  | _, .externItem attrs guarded convention content =>
    attrs.tokens.flatten ++ flagWord guarded "unsafe" ++ convention.tokens ++ content.tokens
  | _, .externCrateItem attrs front name other =>
    attrs.tokens.flatten ++ front.tokens ++ [word "extern", word "crate", .ident name] ++
      (match other with
        | some o => [word "as", .ident o]
        | none => []) ++ punct ';'
  | _, .fnItem attrs front sig body =>
    attrs.tokens.flatten ++ front.tokens ++ sig.tokens ++ body.tokens.getD (punct ';')
  | _, .implItem attrs front guarded ps denied ofTrait self rs content =>
    attrs.tokens.flatten ++ front.tokens ++ flagWord guarded "unsafe" ++ [word "impl"] ++
      after [] ps.tokens ++ (if denied then punct '!' else []) ++
      (match ofTrait.tokens with
        | some p => p ++ [word "for"]
        | none => []) ++ self.tokens ++ after [] rs.tokens ++ content.tokens
  | _, .macroItem attrs m name =>
    attrs.tokens.flatten ++ m.path.tokens ++ punct '!' ++
      (match name with
        | some n => [.ident n]
        | none => []) ++ [.group m.delimiter m.input] ++ semicolon (m.delimiter != .brace)
  | _, .moduleItem attrs front guarded name content =>
    attrs.tokens.flatten ++ front.tokens ++ flagWord guarded "unsafe" ++
      [word "mod", .ident name] ++ content.tokens.getD (punct ';')
  | _, .staticItem attrs front mutable name t value =>
    attrs.tokens.flatten ++ front.tokens ++ [word "static"] ++ flagWord mutable "mut" ++
      [.ident name] ++ punct ':' ++ t.tokens ++ after (punct '=') value.tokens ++ punct ';'
  | _, .structItem attrs front name ps fields rs =>
    attrs.tokens.flatten ++ front.tokens ++ [word "struct", .ident name] ++
      after [] ps.tokens ++
      if areNamed fields then after [] rs.tokens ++ fields.tokens
      else fields.tokens ++ after [] rs.tokens ++ punct ';'
  | _, .traitItem attrs front guarded auto name ps bounds trailing rs content =>
    attrs.tokens.flatten ++ front.tokens ++ flagWord guarded "unsafe" ++ flagWord auto "auto" ++
      [word "trait", .ident name] ++ after [] ps.tokens ++
      colonBounds (plusses trailing bounds.tokens) ++ after [] rs.tokens ++ content.tokens
  | _, .traitAliasItem attrs front name ps bounds trailing rs =>
    attrs.tokens.flatten ++ front.tokens ++ [word "trait", .ident name] ++
      after [] ps.tokens ++ punct '=' ++ plusses trailing bounds.tokens ++
      after [] rs.tokens ++ punct ';'
  | _, .typeItem attrs front name ps rs t =>
    attrs.tokens.flatten ++ front.tokens ++ [word "type", .ident name] ++
      after [] ps.tokens ++ after [] rs.tokens ++ punct '=' ++ t.tokens ++ punct ';'
  | _, .assocTypeItem attrs front name ps bounds trailing t rs =>
    attrs.tokens.flatten ++ front.tokens ++ [word "type", .ident name] ++
      after [] ps.tokens ++ colonBounds (plusses trailing bounds.tokens) ++
      after (punct '=') t.tokens ++ after [] rs.tokens ++ punct ';'
  | _, .foreignTypeItem attrs front name ps rs =>
    attrs.tokens.flatten ++ front.tokens ++ [word "type", .ident name] ++
      after [] ps.tokens ++ after [] rs.tokens ++ punct ';'
  | _, .unionItem attrs front name ps rs fields =>
    attrs.tokens.flatten ++ front.tokens ++ [word "union", .ident name] ++
      after [] ps.tokens ++ after [] rs.tokens ++ fields.tokens
  | _, .useItem attrs front rooted tree =>
    attrs.tokens.flatten ++ front.tokens ++ [word "use"] ++
      (if rooted then operator "::" else []) ++ tree.tokens ++ punct ';'
  | _, .strangeItem ts => ts

/-- The tokens of a file. -/
def File.tokens (f : File) : List Token :=
  f.attrs.flatMap Tree.tokens ++ f.items.flatMap Tree.tokens

end Bindery.Source
