import Bindery.Source.Token
import Bindery.Text.Digits

/-!
# Texts of literals

What sort of value a literal stands for can be told from how it is written. A number is an integer
unless it has a point or an exponent, and what follows its digits is its suffix.
-/
namespace Bindery.Source.Literal

open Bindery.Text

/-- A string literal that holds text. -/
def isText (text : String) : Bool :=
  match text.toList with
  | '"' :: _ => true
  | 'r' :: _ => true
  | _ => false

def isTruth (text : String) : Bool := text == "true" || text == "false"

/-- Whether digits follow the letter of an exponent. -/
def isExponent (s : List Char) : Bool :=
  match s.dropWhile (· == '_') with
  | [] => false
  | c :: _ => c == '+' || c == '-' || isDigit c

/-- The number that digits stand for, and what follows them; none if the number has a point or an
exponent. -/
def digits (base : Nat) (value : Nat) : List Char → Option (Nat × List Char)
  | [] => some (value, [])
  | c :: rest =>
    if c == '_' then digits base value rest
    else if base == 10 && (c == '.' || ((c == 'e' || c == 'E') && isExponent rest)) then none
    else match hexValue? c with
      | some d => if d < base then digits base (value * base + d) rest else some (value, c :: rest)
      | none => some (value, c :: rest)

/-- The value and the suffix of an integer without a sign. -/
def integer? (s : List Char) : Option (Nat × List Char) :=
  match s with
  | '0' :: 'x' :: rest => digits 16 0 rest
  | '0' :: 'o' :: rest => digits 8 0 rest
  | '0' :: 'b' :: rest => digits 2 0 rest
  | c :: _ => if isDigit c then digits 10 0 s else none
  | [] => none

/-- A number without its sign, and whether it had one. -/
def unsigned (s : List Char) : Bool × List Char :=
  match s with
  | '-' :: rest => (true, rest)
  | _ => (false, s)

def isNumber (text : String) : Bool := (unsigned text.toList).2.head?.any isDigit

def isInteger (text : String) : Bool := (integer? (unsigned text.toList).2).isSome

/-- A number with a point or an exponent. -/
def isFraction (text : String) : Bool := isNumber text && !isInteger text

/-- A byte, a character, an integer or a truth value. -/
def isBrief (text : String) : Bool :=
  match text.toList with
  | 'b' :: '\'' :: _ => true
  | '\'' :: _ => true
  | _ => isTruth text || isInteger text

/-- The tokens of a literal: a sign is one of its own, and truth values are words. -/
def tokens (text : String) : List Token :=
  if isTruth text then [.word text]
  else match unsigned text.toList with
    | (true, digits) => [.punct '-' false, .literal (String.ofList digits)]
    | (false, _) => [.literal text]

end Bindery.Source.Literal
