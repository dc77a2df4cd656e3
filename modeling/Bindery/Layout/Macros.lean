import Bindery.Layout.Doc
import Bindery.Source.Syntax

/-!
# Layout of macro input

The input of a macro is laid out token by token: what stands between two tokens depends on them and
on what came before.
-/
namespace Bindery.Layout

open Source

/-- The marks around a group. -/
def openMark : Delimiter → String
  | .paren => "("
  | .bracket => "["
  | .brace => "\x7b"

def closeMark : Delimiter → String
  | .paren => ")"
  | .bracket => "]"
  | .brace => "\x7d"

def keywords : List String := ["as", "async", "await", "box", "break", "const", "continue", "crate",
  "dyn", "else", "enum", "extern", "fn", "for", "if", "impl", "in", "let", "loop", "macro", "match",
  "mod", "move", "mut", "pub", "ref", "return", "static", "struct", "trait", "type", "unsafe",
  "use", "where", "while", "yield"]

/-- What the last tokens were. -/
inductive Behind where
  | nothing
  | dollar
  | variable
  | variableColon
  | repetition
  | repetitionSep
  | pound
  | poundBang
  | dot
  | colon
  | colon2
  | name
  | nameBang
  | closed
  | other
  deriving DecidableEq

def isRound : Delimiter → Bool
  | .paren => true
  | .bracket => true
  | .brace => false

/-- Whether a blank stands before a token, and what is behind the next one. `matcher` says that the
tokens are a pattern. -/
def spacing (matcher : Bool) : Behind → Token → Bool × Behind
  | .dollar, .ident _ => (false, if matcher then .variable else .other)
  | .variable, .punct ':' false => (false, .variableColon)
  | .variableColon, .ident _ => (false, .other)
  | .repetition, .ident _ => (false, .repetitionSep)
  | .repetition, .literal _ => (false, .repetitionSep)
  | .repetition, .punct c joint =>
    (false,
      if !joint && (c == '+' || c == '*' || c == '?') then .other
      else if joint then .repetition else .repetitionSep)
  | .repetitionSep, .punct '+' _ => (false, .other)
  | .repetitionSep, .punct '*' _ => (false, .other)
  | .pound, .punct '!' _ => (false, .poundBang)
  | .dollar, .group .paren _ => (false, .repetition)
  | .pound, .group .bracket _ => (false, .other)
  | .poundBang, .group .bracket _ => (false, .other)
  | .name, .punct '!' false => (false, .nameBang)
  | .colon, .punct ':' _ => (false, .colon2)
  | behind, .group d _ =>
    if !isRound d then (true, .other)
    else if behind == .name then (false, .closed)
    else if behind == .nameBang then (false, .other)
    else (true, .closed)
  | behind, .ident n =>
    if !n.raw && keywords.contains n.word then (true, .other)
    else (behind != .dot && behind != .colon2, .name)
  | behind, .literal _ => (behind != .dot, .name)
  | behind, .punct c joint =>
    if c == ',' || c == ';' then (false, .other)
    else if c == '.' && !matcher then (behind != .name && behind != .closed, .dot)
    else if c == ':' && joint then (behind != .name, .colon)
    else if c == '$' then (true, .dollar)
    else if c == '#' then (true, .pound)
    else (true, .other)

/-- Whether nothing may come between a token and the next. -/
def clings : Token → Bool
  | .punct c joint => joint || c == '$'
  | _ => false

mutual

def tokenDocs (matcher : Bool) : Token → List Doc
  | .ident n => [word n.text]
  | .punct c _ => [word c.toString]
  | .literal t => [word t]
  | .group .brace (t :: rest) =>
    [word "\x7b", space] ++ inputDocs matcher .nothing true (t :: rest) ++ [space, word "\x7d"]
  | .group d inner =>
    [word (openMark d)] ++ inputDocs matcher .nothing true inner ++ [word (closeMark d)]

/-- The tokens of macro input; `joint` says that the token before clings to the first. -/
def inputDocs (matcher : Bool) (behind : Behind) (joint : Bool) : List Token → List Doc
  | [] => []
  | t :: rest =>
    let (blank, next) := spacing matcher behind t
    let isDot := match t with
      | .punct '.' _ => true
      | _ => false
    (if joint then [] else if blank then [space] else if isDot then [zero] else []) ++
      tokenDocs matcher t ++ inputDocs matcher next (clings t) rest

end

/-- Input in a box of its own, between the given breaks. -/
def boxedInput (matcher : Bool) (edge : Doc) : List Token → List Doc
  | [] => []
  | ts => [cbox step (dedent [edge, ibox 0 (inputDocs matcher .nothing true ts), edge])]

/-- The rules of a macro definition. -/
def ruleDocs : List Token → Option (List Doc)
  | [] => some []
  | .group d matcher :: .punct '=' true :: .punct '>' false :: .group _ body :: rest => do
    let here := [word (openMark d)] ++ boxedInput true zero matcher ++
      [word (closeMark d), word " =", word ">", word " \x7b", never] ++
      boxedInput false line body ++ [word "\x7d", word ";", line]
    match rest with
    | [] => return here
    | .punct ';' false :: rest => return here ++ (← ruleDocs rest)
    | _ => none
  | _ => none

def namesDocs (p : SimplePath) : List Doc :=
  (if p.rooted then [word "::"] else []) ++
    joined [word "::"] (p.names.map fun n => [word n.text])

/-- A macro definition. Its input must consist of rules. -/
def macroRules (name : Ident) (rules : List Token) : List Doc :=
  match ruleDocs rules with
  | some docs =>
    [word "macro_rules! ", word name.text, word " \x7b", cbox step (dedent (lineIfMore :: docs)),
      word "\x7d"]
  | none => [.gap]

def macroDocs (m : MacroCall) (name : Option Ident) (semi : Bool) : List Doc :=
  match name with
  | some n =>
    if m.path.isWord "macro_rules" then macroRules n m.input
    else invocation [nbsp, word n.text]
  | none => invocation []
where
  invocation (name : List Doc) : List Doc :=
    let edge := match m.delimiter with
      | .brace => line
      | _ => zero
    let marks := match m.delimiter with
      | .paren => ("(", ")")
      | .bracket => ("[", "]")
      | .brace => (" \x7b", "\x7d")
    namesDocs m.path ++ [word "!"] ++ name ++ [word marks.1] ++
      boxedInput false edge m.input ++ [word marks.2] ++
      if semi && m.delimiter != .brace then [word ";"] else []

end Bindery.Layout
