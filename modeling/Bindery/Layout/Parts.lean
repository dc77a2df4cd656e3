import Bindery.Layout.Attributes
import Bindery.Source.Grammar.Items
import Bindery.Source.Spelling

/-!
# Parts of code

The texts, boxes and breaks that trees are laid out with, given the layout of what they contain. How
a tree is laid out may depend on its role in what contains it.
-/
namespace Bindery.Layout

open Source

/-- Where the rules on generic parameters stand. -/
inductive RulesPlace where
  | beforeBody
  | atEnd
  /-- Before an equals sign, on the same line if they fit. -/
  | inLine
  /-- At the end of an item, on the same line if they fit. -/
  | inLineAtEnd
  deriving DecidableEq

/-- The role of a tree in what contains it. -/
inductive Role where
  | usual
  /-- The arguments of a path need a mark that tells them from a comparison. -/
  | value
  /-- An expression that begins a line. -/
  | lineStart
  /-- The receiver in a chain of fields and calls, which may begin a line. -/
  | receiver (atStart : Bool)
  /-- What follows the word `else`. -/
  | otherwise
  /-- The body of an arm. -/
  | armBody
  /-- Content of which each element has a line of its own. -/
  | tall
  /-- The rules on generic parameters at some place. -/
  | rules (place : RulesPlace)
  deriving DecidableEq

/-- What trees of each shape are laid out as. -/
@[reducible] def Laid : Shape → Type
  | .one _ => List Doc
  | .many _ => List (List Doc)
  | .maybe _ => Option (List Doc)

/-- Content behind a mark, if there is any. -/
def behind (mark : String) : Option (List Doc) → List Doc
  | none => []
  | some docs => word mark :: docs

def flag (present : Bool) (w : String) : List Doc := if present then [word w] else []

def lifetimeText (name : Ident) : String := "'" ++ name.text

def lifetimeDocs : Option Ident → List Doc
  | some l => [word (lifetimeText l), nbsp]
  | none => []

def labelDocs : Option Ident → List Doc
  | some l => [word (lifetimeText l ++ ": ")]
  | none => []

def conventionDocs : Option Convention → List Doc
  | none => []
  | some c => word "extern " :: match c.name with
    | some name => [word name, nbsp]
    | none => []

/-- Whether a path is one of the words that need no mark in front of them. -/
def isNear (p : SimplePath) : Bool := ["crate", "self", "super"].any p.isWord

def visDocs : Visibility → List Doc
  | .inherited => []
  | .everywhere => [word "pub "]
  | .within _ p => [word "pub("] ++ flag (!isNear p) "in " ++ namesDocs p ++ [word ") "]

def frontDocs (f : Front) : List Doc := visDocs f.vis ++ flag f.default "default "

/-- A name in front of a type. -/
def nameDocs : Option Ident → List Doc
  | some n => [word n.text, word ": "]
  | none => []

def fnFlagDocs (f : FnFlags) : List Doc :=
  flag f.constant "const " ++ flag f.async "async " ++ flag f.guarded "unsafe " ++
    conventionDocs f.convention

def closureFlagDocs (f : ClosureFlags) : List Doc :=
  flag f.constant "const " ++ flag f.pinned "static " ++ flag f.async "async " ++
    flag f.owned "move "

def blockKindDocs : BlockKind → List Doc
  | .plain => []
  | .guarded => [word "unsafe "]
  | .constant => [word "const "]
  | .trying => [word "try "]
  | .async owned => word "async " :: flag owned "move "

/-- Lifetimes come before other arguments. -/
def lifetimesFirst (lifetimes : List Bool) (args : List (List Doc)) : List (List Doc) :=
  let marked := lifetimes.zip args
  ((marked.filter (·.1)) ++ (marked.filter (!·.1))).map (·.2)

def plusDocs (bounds : List (List Doc)) : List Doc := joined [word " + "] bounds

/-- Bounds that may stand on lines of their own. -/
def boundDocs : List (List Doc) → List Doc
  | [] => []
  | first :: rest => word ": " :: first ++ rest.flatMap fun b => space :: word "+ " :: b

/-- The bounds of a rule on a lifetime, after its colon. -/
def lifetimeRuleBounds : List (List Doc) → Doc
  | [] => ibox step []
  | first :: rest => ibox step (nbsp :: first ++ rest.flatMap fun b => space :: word "+ " :: b)

/-- The bounds of a rule on a type, after its colon. -/
def ruleBounds : List (List Doc) → Doc
  | [] => ibox step []
  | [one] => ibox 0 (nbsp :: one)
  | first :: rest => ibox step (nbsp :: first ++ rest.flatMap fun b => space :: word "+ " :: b)

def parameterDocs (lifetimes : List Bool) (params : List (List Doc)) : List Doc :=
  if params.isEmpty then []
  else [word "<", listBox 0 (lifetimesFirst lifetimes params), word ">"]

/-- Rules at a place, or what stands there if there are none. -/
def rulesDocs (place : RulesPlace) (rules : List (List Doc)) : List Doc :=
  match place with
  | .beforeBody =>
    if rules.isEmpty then [nbsp]
    else dedent [line] ++ [word "where"] ++
      dedent (line :: rules.flatMap fun r => r ++ [word ",", line])
  | .atEnd =>
    if rules.isEmpty then [word ";"]
    else dedent [line] ++ [word "where", line] ++ joined [word ",", line] rules ++ [word ";"]
  | .inLine =>
    if rules.isEmpty then [nbsp]
    else dedent [space] ++ [word "where"] ++ dedent (space :: withCommas lastCommaOrSpace rules)
  | .inLineAtEnd =>
    if rules.isEmpty then [word ";"]
    else dedent [space] ++ [word "where", space] ++ joined [word ",", space] rules ++ [word ";"]

/-- Rules that may be missing. -/
def rulesAt (place : RulesPlace) (rules : Option (List Doc)) : List Doc :=
  rules.getD (rulesDocs place [])

/-- A list in parentheses; a single element is followed by a comma. -/
def tupleDocs (elems : List (List Doc)) : List Doc :=
  let body := match elems with
    | [x] => zero :: x ++ [word ",", zero]
    | elems => zero :: withCommas lastComma elems
  [word "(", cbox step (dedent body), word ")"]

/-- The parameters of a function, and what stands for any number of them. -/
def paramDocs (inputs : List (List Doc)) (rest : Option (List Doc)) : List Doc :=
  zero :: match rest with
    | none => withCommas lastComma inputs
    | some docs => (inputs.flatMap fun d => d ++ [word ",", space]) ++ docs ++ [zero]

/-- Short elements, as many on a line as fit. -/
def briefBox (elems : List (List Doc)) : Doc :=
  cbox step ([word "[", zero, ibox 0 (joined [word ",", space] elems)] ++ dedent [lastComma] ++
    [word "]"])

def enclosed (opening closing : String) (elems : List (List Doc)) : List Doc :=
  [word opening, listBox step elems, word closing]

/-- Fields between braces, with a break behind the brace even if none follow, and what stands for
other fields. -/
def fieldDocs (elems : List (List Doc)) (base : Option (List Doc)) : List Doc :=
  let last := if base.isSome then word "," else lastCommaOrSpace
  let fields := match base with
    | none => withCommas last elems
    | some docs => (elems.flatMap fun x => x ++ [word ",", space]) ++ docs ++ [space]
  dedent (spaceIfMore :: fields)

/-- Statements with an inner attribute each line before them, behind an opening brace. -/
def bodyDocs (content : List Doc) : List Doc := dedent (lineIfMore :: content)

def bodyBox (content : List Doc) : List Doc :=
  [word "\x7b", never, cbox step (bodyDocs content), word "\x7d"]

/-- An item with a body of lines, behind its head. -/
def bodied (head content : List Doc) : List Doc :=
  [cbox step (head ++ [word "\x7b"] ++ bodyDocs content), word "\x7d", line]

/-- Whether a block has no attributes of its own. -/
def isUnmarked : Block → Bool
  | .block attrs _ => attrs.isNil

/-- Whether an expression may be the only argument of a call without a box around it. -/
def isBlockLike : Expr → Bool
  | .arrayExpr .. => true
  | .blockExpr label _ body => label.isNone && isUnmarked body
  | .closureExpr .. => true
  | .structExpr .. => true
  | .tupleExpr .. => true
  | _ => false

/-- The arguments of a call between its parentheses. -/
def argDocs (args : Tree (.many .expr)) (docs : List (List Doc)) : List Doc :=
  match args, docs with
  | .cons e .nil, [d] => if isBlockLike e then d else [listBox step docs]
  | _, _ => [listBox step docs]

/-- Names so short that a call of their methods need not move to the next line. -/
def isShort : Expr → Bool
  | .pathExpr (.plainPlace (.path false (.cons (.segment n .noArgs) .nil))) =>
    (n.text.utf8ByteSize : Int) ≤ step
  | _ => false

/-- The break before a dot. -/
def dotBreak (atStart : Bool) (receiver : Expr) : List Doc :=
  if atStart && isShort receiver then [] else [zero]

/-- Whether a brace behind a condition starts a line of its own if the condition takes several. -/
def standsApart : {s : Shape} → Tree s → Bool
  | _, .attributed _ e => standsApart e
  | _, .assignExpr .. => true
  | _, .awaitExpr _ => true
  | _, .binaryExpr .. => true
  | _, .castExpr .. => true
  | _, .fieldExpr .. => true
  | _, .indexExpr .. => true
  | _, .methodExpr .. => true
  | _, .breakExpr _ e => standsApart e
  | _, .callExpr e _ _ => standsApart e
  | _, .letExpr _ e => standsApart e
  | _, .parenExpr e => standsApart e
  | _, .rangeExpr _ _ e => standsApart e
  | _, .addressExpr _ e => standsApart e
  | _, .referenceExpr _ e => standsApart e
  | _, .returnExpr e => standsApart e
  | _, .yieldExpr e => standsApart e
  | _, .tryExpr e => standsApart e
  | _, .unaryExpr _ e => standsApart e
  | _, .present e => standsApart e
  | _, _ => false

/-- A condition before a brace. -/
def conditionDocs (e : Expr) (docs : List Doc) : Doc :=
  cbox 0 (docs ++ [if standsApart e then space else nbsp])

def isAssignment (op : String) : Bool := Grammar.strengthOf op == .assign

/-- Whether an expression at the end of a block gets a semicolon. -/
def takesSemicolon (e : Expr) : Bool :=
  match Grammar.withoutAttributes e with
  | .assignExpr .. => true
  | .breakExpr .. => true
  | .continueExpr _ => true
  | .returnExpr _ => true
  | .yieldExpr _ => true
  | .binaryExpr _ op _ => isAssignment op
  | _ => false

/-- Whether the semicolon behind a statement is dropped. -/
def dropsSemicolon : {s : Shape} → Tree s → Bool
  | _, .attributed _ e => dropsSemicolon e
  | _, .forExpr .. => true
  | _, .whileExpr .. => true
  | _, .ifExpr _ _ e => dropsSemicolon e
  | _, .absent => true
  | _, .present e => dropsSemicolon e
  | _, _ => false

/-- Whether an expression can stand as a statement; otherwise its beginning would be read as one. -/
def startsStatement : {s : Shape} → Tree s → Bool
  | _, .attributed _ e => startsStatement e
  | _, .assignExpr e _ => startsStatement e
  | _, .awaitExpr e => startsStatement e
  | _, .binaryExpr e _ _ => Grammar.needsSemicolon e && startsStatement e
  | _, .callExpr e _ _ => Grammar.needsSemicolon e && startsStatement e
  | _, .castExpr e _ => Grammar.needsSemicolon e && startsStatement e
  | _, .fieldExpr e _ => startsStatement e
  | _, .indexExpr e _ => Grammar.needsSemicolon e && startsStatement e
  | _, .methodExpr e _ _ _ _ => startsStatement e
  | _, .rangeExpr (.present e) _ _ => Grammar.needsSemicolon e && startsStatement e
  | _, .tryExpr e => startsStatement e
  | _, _ => true

/-- The body of a closure or an arm on a line of its own, in braces or parentheses if it moves
there. `unbroken` is what follows it otherwise. -/
def wrappedBody (e : Expr) (docs : List Doc) (closing unbroken : String) : Doc :=
  let plain := startsStatement e
  cbox step (
    .brk { before := if plain then "\x7b" else "(" } :: docs ++
    [.brk {
      offset := -step
      before := if plain && takesSemicolon e then ";" else ""
      after := if plain then "\x7d" else ")" ++ closing
      unbroken := unbroken }])

/-- Whether the body of a closure stays on its line. -/
def isOpenBody : Expr → Bool
  | .matchExpr _ attrs _ => attrs.isNil
  | .callExpr .. => true
  | e => isBlockLike e

/-- Content after an opening brace in a box that is closed before the other brace. -/
def smallBlock (content : List Doc) : List Doc :=
  if content.isEmpty then [word "\x7b", word "\x7d"]
  else word "\x7b" :: dedent (space :: content) ++ [word "\x7d"]

/-- An expression alone in braces. -/
def soleDocs (docs : List Doc) : List Doc := [ibox 0 docs, space]

/-- Literals that are short enough to stand several to a line. -/
def areBrief : {s : Shape} → Tree s → Bool
  | _, .cons e rest => areBrief e && areBrief rest
  | _, .nil => true
  | _, .attributed _ e => areBrief e
  | _, .literalExpr text => Literal.isBrief text
  | _, _ => false

/-- Patterns that are short enough to stand several to a line. -/
def allBrief : {s : Shape} → Tree s → Bool
  | _, .cons (.literalPat _) rest => allBrief rest
  | _, .cons .anyPat rest => allBrief rest
  | _, .nil => true
  | _, _ => false

mutual

def useDocs : UseTree → List Doc
  | .path n rest => word n.text :: word "::" :: useDocs rest
  | .name n => [word n.text]
  | .rename n other => [word n.text, word " as ", word other.text]
  | .glob => [word "*"]
  | .group items _ =>
    [word "\x7b", cbox step (dedent [zero, ibox 0 (useItems items), lastComma]), word "\x7d"]

def useItems : List UseTree → List Doc
  | [] => []
  | [t] => useDocs t
  | t :: rest => useDocs t ++ [word ",", if endsInGroup t then line else space] ++ useItems rest

def endsInGroup : UseTree → Bool
  | .path _ rest => endsInGroup rest
  | .group .. => true
  | _ => false

end

/-- The lifetimes and the mutability in front of `self`. -/
def selfDocs (reference : Bool) (l : Option Ident) (mutable : Bool) : List Doc :=
  flag reference "&" ++ lifetimeDocs l ++ flag mutable "mut " ++ [word "self"]

namespace Role

/-- Whether a line begins here. -/
def atStart : Role → Bool
  | .lineStart => true
  | .armBody => true
  | .receiver atStart => atStart
  | _ => false

/-- The role of what a field or a method is taken of. -/
def chainedOn (role : Role) : Role := .receiver role.atStart

/-- The role of what is indexed or tried. -/
def passed : Role → Role
  | .receiver atStart => .receiver atStart
  | .lineStart => .lineStart
  | .armBody => .lineStart
  | _ => .usual

/-- The role of what is called. -/
def called : Role → Role
  | .receiver _ => .receiver false
  | .lineStart => .lineStart
  | .armBody => .lineStart
  | _ => .usual

end Role

/-- Puts an expression that is no block where a block is expected. -/
def wrapped (role : Role) (e : Expr) (docs : List Doc) : List Doc :=
  match role with
  | .otherwise => word "\x7b" :: dedent [space, ibox step docs, space] ++ [word "\x7d"]
  | .armBody => [never, wrappedBody e docs "," (if Grammar.endsItself e then "" else ",")]
  | _ => docs

/-- An expression of its own. As a receiver it starts at the margin of its chain. -/
def framed (role : Role) (e : Expr) (docs : List Doc) : List Doc :=
  match role with
  | .receiver _ => [cbox (-step) docs]
  | _ => wrapped role e docs

/-- A field or a method call. One box holds a whole chain of them. -/
def chained (role : Role) (e : Expr) (docs : List Doc) : List Doc :=
  match role with
  | .receiver _ => docs
  | _ => wrapped role e [cbox step docs]

end Bindery.Layout
