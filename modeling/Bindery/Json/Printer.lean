import Bindery.Json.Basic
import Bindery.Json.Double

/-!
# Writing JSON text

The compact form: no blanks, members in their order, and only those characters escaped that a
string cannot hold.
-/
namespace Bindery.Json

/-- A character inside a string. -/
def stringChar (c : Char) : List Char :=
  if c == '"' then ['\\', '"']
  else if c == '\\' then ['\\', '\\']
  else if c == '\x08' then ['\\', 'b']
  else if c == '\x0c' then ['\\', 'f']
  else if c == '\n' then ['\\', 'n']
  else if c == '\r' then ['\\', 'r']
  else if c == '\t' then ['\\', 't']
  else if c < ' ' then
    ['\\', 'u', '0', '0', Nat.digitChar (c.toNat / 16), Nat.digitChar (c.toNat % 16)]
  else [c]

def stringText (s : String) : List Char := '"' :: (s.toList.flatMap stringChar ++ ['"'])

def integerText : Int → List Char
  | .ofNat n => Nat.toDigits 10 n
  | .negSucc n => '-' :: Nat.toDigits 10 (n + 1)

/-- A double; values that are no numbers are written as null. -/
def realText (x : Float) : List Char :=
  if x.isFinite then doubleText x else ['n', 'u', 'l', 'l']

mutual

def compact : Json → List Char
  | .null => ['n', 'u', 'l', 'l']
  | .bool true => ['t', 'r', 'u', 'e']
  | .bool false => ['f', 'a', 'l', 's', 'e']
  | .integer n => integerText n
  | .real x => realText x
  | .string s => stringText s
  | .array [] => ['[', ']']
  | .array (item :: rest) => '[' :: (compact item ++ compactItems rest)
  | .object [] => ['\x7b', '\x7d']
  | .object ((key, v) :: rest) =>
    '\x7b' :: (stringText key ++ ':' :: (compact v ++ compactMembers rest))

def compactItems : List Json → List Char
  | [] => [']']
  | item :: rest => ',' :: (compact item ++ compactItems rest)

def compactMembers : List (String × Json) → List Char
  | [] => ['\x7d']
  | (key, v) :: rest => ',' :: (stringText key ++ ':' :: (compact v ++ compactMembers rest))

end

def text (j : Json) : String := String.ofList (compact j)

end Bindery.Json
