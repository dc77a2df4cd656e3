import Bindery.Proofs.Json.Printing

/-!
# Documents as they are written

The texts of the JSON grammar, as trees of lexemes. Between the lexemes of a text stand blanks. A
lexeme of the grammar need not mean anything: an escape may be half of a surrogate pair, a number
may be out of range.
-/
namespace Bindery.Json

open Bindery.Text (Piece)

/-! Lexemes -/

/-- Four hexadecimal digits. -/
structure Quad where
  digits : List Char
  length_digits : digits.length = 4
  isHex : ∀ c ∈ digits, (Text.hexValue? c).isSome

def Quad.value (q : Quad) : Nat :=
  q.digits.foldl (fun n c => n * 16 + (Text.hexValue? c).getD 0) 0

/-- What stands inside a string: a character, a one-letter escape or an escaped UTF-16 unit. -/
inductive StringPart where
  | plain (c : Char) (h : ' ' ≤ c ∧ c ≠ '"' ∧ c ≠ '\\')
  | short (c : Char) (h : c ∈ ['"', '\\', '/', 'b', 'f', 'n', 'r', 't'])
  | unit (q : Quad)

def StringPart.text : StringPart → List Char
  | .plain c _ => [c]
  | .short c _ => ['\\', c]
  | .unit q => '\\' :: 'u' :: q.digits

/-- The parts as a string, in quotes. -/
def quoted (parts : List StringPart) : List Char := '"' :: (parts.flatMap StringPart.text ++ ['"'])

def IsHighSurrogate (n : Nat) : Prop := 0xd800 ≤ n ∧ n ≤ 0xdbff

def IsLowSurrogate (n : Nat) : Prop := 0xdc00 ≤ n ∧ n ≤ 0xdfff

instance (n : Nat) : Decidable (IsHighSurrogate n) := inferInstanceAs (Decidable (_ ∧ _))

instance (n : Nat) : Decidable (IsLowSurrogate n) := inferInstanceAs (Decidable (_ ∧ _))

/-- The characters that parts of a string stand for, if each surrogate is one of a pair. -/
def content? : List StringPart → Option (List Char)
  | [] => some []
  | .plain c _ :: rest => (content? rest).map (c :: ·)
  | .short c _ :: rest => (shortEscape? c).bind fun d => (content? rest).map (d :: ·)
  | .unit q :: .unit r :: rest =>
    if IsHighSurrogate q.value then
      if IsLowSurrogate r.value then
        (content? rest).map
          (Char.ofNat ((q.value - 0xd800) * 0x400 + (r.value - 0xdc00) + 0x10000) :: ·)
      else none
    else if IsLowSurrogate q.value then none
    else (content? (.unit r :: rest)).map (Char.ofNat q.value :: ·)
  | .unit q :: rest =>
    if IsHighSurrogate q.value ∨ IsLowSurrogate q.value then none
    else (content? rest).map (Char.ofNat q.value :: ·)

/-- The text that parts of a string stand for. -/
def nameOf? (parts : List StringPart) : Option String := (content? parts).map String.ofList

def IsDigits (ds : List Char) : Prop := ds ≠ [] ∧ ∀ c ∈ ds, c.isDigit = true

structure Exponent where
  letter : Char
  sign : Option Char
  digits : List Char
  letter_eq : letter = 'e' ∨ letter = 'E'
  sign_eq : ∀ c ∈ sign, c = '+' ∨ c = '-'
  isDigits : IsDigits digits

def Exponent.text (x : Exponent) : List Char := x.letter :: (x.sign.toList ++ x.digits)

/-- A number with a fraction and an exponent, where it has them. Only zero starts with a zero. -/
structure Number where
  minus : Bool
  whole : List Char
  fraction : Option (List Char)
  exponent : Option Exponent
  whole_isDigits : IsDigits whole
  eq_nil_of_zero : ∀ ds, whole = '0' :: ds → ds = []
  fraction_isDigits : ∀ ds ∈ fraction, IsDigits ds

/-- What stands behind the digits before the point. -/
def tailText (fraction : Option (List Char)) (exponent : Option Exponent) : List Char :=
  (fraction.elim [] ('.' :: ·)) ++ exponent.elim [] Exponent.text

def Number.text (n : Number) : List Char :=
  (if n.minus then ['-'] else []) ++ (n.whole ++ tailText n.fraction n.exponent)

/-- A value without parts. -/
inductive Token where
  | null
  | bool (b : Bool)
  | number (n : Number)
  | string (parts : List StringPart)

def Token.text : Token → List Char
  | .null => ['n', 'u', 'l', 'l']
  | .bool true => ['t', 'r', 'u', 'e']
  | .bool false => ['f', 'a', 'l', 's', 'e']
  | .number n => n.text
  | .string parts => quoted parts

/-- What a number is read as, where nothing goes on with it; none if it is out of range. -/
def Number.document? (n : Number) : Option Json :=
  (number (!n.minus) (chars (n.whole ++ tailText n.fraction n.exponent))).toOption.map Prod.fst

/-- The document that a token stands for, if it stands for one. -/
def Token.document? : Token → Option Json
  | .null => some .null
  | .bool b => some (.bool b)
  | .number n => n.document?
  | .string parts => (nameOf? parts).map .string

/-! Trees -/

/-- A document as it is written, but for the blanks. -/
inductive Written where
  | token (t : Token)
  | array (items : List Written)
  | object (members : List (List StringPart × Written))

namespace Written

mutual

def lexemes : Written → List (List Char)
  | .token t => [t.text]
  | .array [] => [['['], [']']]
  | .array (w :: ws) => ['['] :: (lexemes w ++ itemLexemes ws)
  | .object [] => [['\x7b'], ['\x7d']]
  | .object ((key, w) :: ms) =>
    ['\x7b'] :: quoted key :: [':'] :: (lexemes w ++ memberLexemes ms)

/-- The lexemes behind an item of a list. -/
def itemLexemes : List Written → List (List Char)
  | [] => [[']']]
  | w :: ws => [','] :: (lexemes w ++ itemLexemes ws)

/-- The lexemes behind a member of an object. -/
def memberLexemes : List (List StringPart × Written) → List (List Char)
  | [] => [['\x7d']]
  | (key, w) :: ms => [','] :: quoted key :: [':'] :: (lexemes w ++ memberLexemes ms)

end

mutual

/-- The document that is written, if each lexeme stands for something. -/
def document? : Written → Option Json
  | .token t => t.document?
  | .array ws => (documents? ws).map .array
  | .object ms => (members? ms).map .object

def documents? : List Written → Option (List Json)
  | [] => some []
  | w :: ws => (document? w).bind fun j => (documents? ws).map (j :: ·)

def members? : List (List StringPart × Written) → Option (List (String × Json))
  | [] => some []
  | (parts, w) :: ms => (nameOf? parts).bind fun key =>
      (document? w).bind fun j => (members? ms).map ((key, j) :: ·)

end

/-- A document that nests at most so many levels. -/
def Nests : Nat → Written → Prop
  | _, .token _ => True
  | 0, .array _ => False
  | d + 1, .array ws => ∀ w ∈ ws, Nests d w
  | 0, .object _ => False
  | d + 1, .object ms => ∀ m ∈ ms, Nests d m.2

end Written

/-! Blanks -/

def Blank (s : List Char) : Prop := ∀ c ∈ s, c ∈ [' ', '\n', '\t', '\r']

/-- The lexemes stand in the text one after the other, with blanks before, between and behind
them. -/
def Spaced : List (List Char) → List Char → Prop
  | [], text => Blank text
  | l :: ls, text => ∃ blanks more, text = blanks ++ (l ++ more) ∧ Blank blanks ∧ Spaced ls more

/-- A text writes a document. -/
def Written.Spells (w : Written) (text : List Char) : Prop := Spaced w.lexemes text

end Bindery.Json
