import Bindery.Text.Ranges

/-!
# Blank characters

The Unicode property White_Space, and cutting text at it and at line ends.
-/
namespace Bindery.Text

/-- White_Space. -/
def blank : Ranges := [
    (9, 0xd), (0x20, 0x20), (0x85, 0x85), (0xa0, 0xa0), (0x1680, 0x1680), (0x2000, 0x200a),
    (0x2028, 0x2029), (0x202f, 0x202f), (0x205f, 0x205f), (0x3000, 0x3000)]

def isBlank (c : Char) : Bool := blank.has c.toNat

def trimStart (s : List Char) : List Char := s.dropWhile isBlank

def trimEnd (s : List Char) : List Char := (s.reverse.dropWhile isBlank).reverse

def trim (s : List Char) : List Char := trimEnd (trimStart s)

/-- Pieces between the characters that satisfy `p`, empty ones included. -/
def splitBy (p : Char → Bool) : List Char → List (List Char)
  | [] => [[]]
  | c :: rest =>
    if p c then [] :: splitBy p rest
    else match splitBy p rest with
      | [] => [[c]]
      | piece :: more => (c :: piece) :: more

/-- Removes one carriage return from the end. -/
def dropCarriageReturn (s : List Char) : List Char :=
  if s.getLast? == some '\r' then s.dropLast else s

/-- The lines of a text. A line end is a line feed, or a carriage return and a line feed; the last
one ends the text instead of starting an empty line. -/
def lines (s : List Char) : List (List Char) :=
  let pieces := splitBy (· == '\n') s
  match pieces.getLast? with
  | some [] => pieces.dropLast.map dropCarriageReturn
  | some last => pieces.dropLast.map dropCarriageReturn ++ [last]
  | none => []

end Bindery.Text
