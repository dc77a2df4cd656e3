import Bindery.Text.Visible

/-!
# Quoted text

Text between double quotes, with backslash escapes for the quote, the backslash, line ends, tabs
and every character that would not be seen.
-/
namespace Bindery.Text

/-- A code point escape in hexadecimal. -/
def codePointEscape (c : Char) : List Char :=
  ['\\', 'u', '\x7b'] ++ Nat.toDigits 16 c.toNat ++ ['\x7d']

/-- The escaped form of a character inside double quotes. -/
def escaped (c : Char) : List Char :=
  if c == '\x00' then ['\\', '0']
  else if c == '\t' then ['\\', 't']
  else if c == '\r' then ['\\', 'r']
  else if c == '\n' then ['\\', 'n']
  else if c == '\\' then ['\\', '\\']
  else if c == '"' then ['\\', '"']
  else if isCombining c || isInvisible c then codePointEscape c
  else [c]

/-- A text for a message. -/
def quoted (s : List Char) : List Char := '"' :: (s.flatMap escaped ++ ['"'])

/-- The inside of a string literal of emitted code. A null character before an octal digit is
written with two hexadecimal digits. -/
def literalBody : List Char → List Char
  | [] => []
  | c :: rest =>
    let next := rest.head?.any fun d => '0' ≤ d && d ≤ '7'
    (if c == '\x00' && next then ['\\', 'x', '0', '0'] else escaped c) ++ literalBody rest

/-- A string literal of emitted code. -/
def literal (s : List Char) : List Char := '"' :: (literalBody s ++ ['"'])

end Bindery.Text
