import Bindery.Ident

/-!
# Token trees

Code of the emitted language is a sequence of token trees: identifiers, punctuation characters,
literals, and groups between delimiters. A lifetime is an apostrophe joined to an identifier.
-/
namespace Bindery.Source

inductive Delimiter where
  | paren
  | bracket
  | brace
  deriving DecidableEq, Repr

/-- A punctuation character is joint if it forms an operator with the one that follows. Literals
are kept as they are written. -/
inductive Token where
  | ident (name : Ident)
  | punct (c : Char) (joint : Bool)
  | literal (text : String)
  | group (d : Delimiter) (inner : List Token)

namespace Token

/-- A plain word, such as a keyword. -/
def word (w : String) : Token := .ident ⟨w, false⟩

/-- One operator of several characters. -/
def operator (op : String) : List Token := go op.toList
where
  go : List Char → List Token
    | [] => []
    | [c] => [.punct c false]
    | c :: rest => .punct c true :: go rest

def lifetime (name : Ident) : List Token := [.punct '\'' true, .ident name]

def isJoint : Token → Bool
  | .punct _ joint => joint
  | _ => false

mutual

/-- The number of tokens, groups and their contents included. -/
def size : Token → Nat
  | .group _ inner => 1 + sizeAll inner
  | _ => 1

def sizeAll : List Token → Nat
  | [] => 0
  | t :: rest => t.size + sizeAll rest

end

/-- Whether tokens are the content of an attribute that documents something. -/
def areDoc : List Token → Bool
  | [.ident i, .punct '=' _, .literal _] => i == ⟨"doc", false⟩
  | _ => false

/-- Puts a token in front of others; together they may make up a documenting attribute, which
vanishes. -/
def consBare : Token → List Token → List Token
  | .punct '#' joint, .group .bracket inner :: rest =>
    if areDoc inner then rest else .punct '#' joint :: .group .bracket inner :: rest
  | .punct '#' joint, .punct '!' joint' :: .group .bracket inner :: rest =>
    if areDoc inner then rest
    else .punct '#' joint :: .punct '!' joint' :: .group .bracket inner :: rest
  | t, rest => t :: rest

mutual

/-- A token without documentation inside. -/
def bare : Token → Token
  | .group d inner => .group d (bareAll inner)
  | t => t

/-- Tokens without documentation. -/
def bareAll : List Token → List Token
  | [] => []
  | t :: rest => consBare t.bare (bareAll rest)

end

mutual

/-- Tokens are separated by one space, except after joint punctuation. -/
def text : Token → String
  | .ident name => name.text
  | .punct c _ => c.toString
  | .literal t => t
  | .group .paren inner => "(" ++ textAll inner ++ ")"
  | .group .bracket inner => "[" ++ textAll inner ++ "]"
  | .group .brace [] => "\x7b \x7d"
  | .group .brace (t :: rest) => "\x7b " ++ textAll (t :: rest) ++ " \x7d"

def textAll : List Token → String
  | [] => ""
  | [t] => t.text
  | t :: u :: rest => t.text ++ (if t.isJoint then "" else " ") ++ textAll (u :: rest)

end

end Token

/-- The text of a token sequence. -/
def spell (ts : List Token) : String := Token.textAll ts

/-- The text of a token sequence without blanks between tokens. -/
def spellTight (ts : List Token) : String :=
  String.ofList ((spell ts).toList.filter (· != ' '))

end Bindery.Source
