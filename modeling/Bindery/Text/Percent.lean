import Bindery.Text.Digits
import Bindery.Text.Utf8

/-!
# Percent escapes

A byte is escaped as a percent sign and two hexadecimal digits, capitals when written.
-/
namespace Bindery.Text

def escapeByte (b : UInt8) : List Char :=
  ['%', hexDigit (b.toNat / 16), hexDigit (b.toNat % 16)]

/-- Escapes the characters that are not kept, byte by byte. -/
def escape (keep : Char → Bool) (s : List Char) : List Char :=
  s.flatMap fun c => if keep c then [c] else (String.utf8EncodeChar c).flatMap escapeByte

/-- The bytes of a text in which escapes stand for theirs. A percent sign without two digits stands
for itself. -/
def unescape : List Char → List UInt8
  | '%' :: a :: b :: rest =>
    match hexValue? a, hexValue? b with
    | some high, some low => UInt8.ofNat (high * 16 + low) :: unescape rest
    | _, _ => UInt8.ofNat '%'.toNat :: unescape (a :: b :: rest)
  | c :: rest => String.utf8EncodeChar c ++ unescape rest
  | [] => []

end Bindery.Text
