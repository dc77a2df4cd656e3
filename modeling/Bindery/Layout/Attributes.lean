import Bindery.Layout.Macros
import Bindery.Source.Lexer

/-!
# Layout of attributes

Documentation and comments are attributes with a text. Where the text permits it they are written as
comments of the emitted language.
-/
namespace Bindery.Layout

open Source

/-- What the token before left behind in the input of an attribute. -/
inductive InputEnd where
  | word
  | mark
  | comma
  deriving DecidableEq

mutual

/-- One token of the input of an attribute. -/
def attrToken (last : Bool) (e : InputEnd) : Token → List Doc × InputEnd
  | .ident n => ((if e == .word then [space] else []) ++ [word n.text], .word)
  | .literal t => ((if e == .word then [space] else []) ++ [word t], .word)
  | .punct c _ =>
    let front := if e == .word && c == '=' then [nbsp] else []
    if c == ',' && last then (front ++ [lastComma], .comma)
    else
      let behind := if c == '=' then [nbsp] else if c == ',' then [space] else []
      (front ++ [word c.toString] ++ behind, .mark)
  | .group .paren inner =>
    let (docs, e) := attrTokens .mark inner
    let docs := zero :: docs ++ if e == .comma then [] else [zero]
    ([word "(", cbox step (dedent docs), word ")"], .mark)
  | .group d inner =>
    ([word (openMark d)] ++ (attrTokens .mark inner).1 ++ [word (closeMark d)], .mark)

def attrTokens (e : InputEnd) : List Token → List Doc × InputEnd
  | [] => ([], e)
  | t :: rest =>
    let (docs, e) := attrToken rest.isEmpty e t
    let (more, e) := attrTokens e rest
    (docs ++ more, e)

end

/-- A text without the spaces at its end. -/
def trimEnd (cs : List Char) : List Char := (cs.reverse.dropWhile (· == ' ')).reverse

/-- A text without spaces at the ends of its lines, except the last. -/
def trimLines (cs : List Char) : List Char := go [] cs
where
  go (line : List Char) : List Char → List Char
    | [] => line.reverse
    | '\n' :: rest => (line.dropWhile (· == ' ')).reverse ++ '\n' :: go [] rest
    | c :: rest => go (c :: line) rest

/-- Whether comment marks are paired in a text. -/
def nests (depth : Nat) : List Char → Bool
  | '/' :: '*' :: rest => nests (depth + 1) rest
  | '*' :: '/' :: rest =>
    match depth with
    | 0 => false
    | depth + 1 => nests depth rest
  | _ :: rest => nests depth rest
  | [] => depth == 0

/-- Whether a text can stand between comment marks. -/
def fitsComment (cs : List Char) : Bool := nests 0 cs && cs.getLast? != some '/'

def startsWithAny (marks cs : List Char) : Bool :=
  match cs with
  | c :: _ => marks.contains c
  | [] => false

/-- A comment, if the text permits it. `onLine` and `inBlock` are the marks that start it, and
`refused` the first characters with which it would be read as something else. -/
def commentDocs (onLine inBlock : String) (refusedOnLine refusedInBlock : List Char)
    (text : List Char) : Option (List Doc) :=
  if !text.contains '\n' && !startsWithAny refusedOnLine text then
    some [word onLine, word (String.ofList (trimEnd text)), line]
  else if fitsComment text && !startsWithAny refusedInBlock text then
    some [word inBlock, word (String.ofList (trimLines text)), word "*/", line]
  else none

/-- The comment that an attribute with a value is written as, if it can be. -/
def commentOf? (inner : Bool) (p : SimplePath) (value : Expr) : Option (List Doc) :=
  match value with
  | .literalExpr t =>
    match (Lexer.text t.toList).map (·.1) with
    | none => none
    | some text =>
      if p.isWord "doc" then
        if inner then commentDocs "//!" "/*!" [] [] text
        else commentDocs "///" "/**" ['/'] ['*', '/'] text
      else if p.isWord "comment" then commentDocs "//" "/*" [] ['*', '!'] text
      else none
  | _ => none

/-- The documents of an attribute with the given content of its brackets. -/
def hashDocs (inner : Bool) (content : List Doc) : List Doc :=
  [word (if inner then "#!" else "#"), word "["] ++ content ++ [word "]", space]

end Bindery.Layout
