import Bindery.Text.Blank
import Bindery.Text.Case
import Bindery.Text.Punycode
import Bindery.Text.Utf8
import Bindery.Text.Visible

/-!
# Domain names

A domain name is compared in its ASCII form: capitals become small, wide forms plain, and a label
with other characters is written in Punycode after `xn--`.
-/
namespace Bindery.Url

open Text

/-- Characters that vanish from a domain name. -/
def isDropped (c : Char) : Bool :=
  [0xad, 0x34f, 0x200b, 0x2060, 0x2064, 0xfeff].contains c.toNat ||
    (0x180b ≤ c.toNat && c.toNat ≤ 0x180f) || (0xfe00 ≤ c.toNat && c.toNat ≤ 0xfe0f)

/-- What a character of a domain name stands for. -/
def mapped (c : Char) : List Char :=
  let n := c.toNat
  if isDropped c then []
  else if [0x3002, 0xff0e, 0xff61].contains n then ['.']
  else if 0xff01 ≤ n && n ≤ 0xff5e then lower (Char.ofNat (n - 0xfee0))
  else if isBlank c then [' ']
  else lower c

/-- Whether a domain name may hold a character. -/
def isDomainChar (c : Char) : Bool :=
  if c.toNat < 128 then
    ' ' < c && c != '\x7f' &&
      !"%#/:<>?@[\\]^|".toList.contains c
  else !isInvisible c

def isLabel (label : List Char) : Bool :=
  label.all isDomainChar && !(label.head?.any isCombining)

/-- The ASCII form of a label. One that is in that form already must stand for what it would be
written as. -/
def asciiLabel? (label : List Char) : Option (List Char) :=
  if !isLabel label then none
  else if ['x', 'n', '-', '-'].isPrefixOf label then do
    let plain ← Punycode.decode? (label.drop 4)
    if isLabel plain && !plain.all Punycode.isAscii && plain.flatMap mapped == plain then
      some label
    else none
  else if label.all Punycode.isAscii then some label
  else some (['x', 'n', '-', '-'] ++ Punycode.encode label)

/-- The ASCII form of a domain name. -/
def asciiDomain? (bytes : List UInt8) : Option (List Char) := do
  let name ← whole? (piecesOfBytes bytes)
  let labels ← (splitBy (· == '.') (name.toList.flatMap mapped)).mapM asciiLabel?
  return List.intercalate ['.'] labels

end Bindery.Url
