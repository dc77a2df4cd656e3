import Bindery.Text.Digits
import Bindery.Text.Percent
import Bindery.Url.Domain
import Bindery.Url.Fault

/-!
# Hosts

A host is a name or an address. A name that ends in a number must be an IPv4 address, and an address
in brackets is an IPv6 address.
-/
namespace Bindery

inductive Host where
  | name (text : String)
  | ipv4 (address : Nat)
  | ipv6 (pieces : List Nat)
  deriving DecidableEq, Repr

namespace Host

open Text

/-- A number in base ten, or in base eight after `0`, or in base sixteen after `0x`. -/
def number? (s : List Char) : Option Nat :=
  let (base, ds) : Nat × List Char := match s with
    | '0' :: 'x' :: rest => (16, rest)
    | '0' :: 'X' :: rest => (16, rest)
    | '0' :: c :: rest => (8, c :: rest)
    | _ => (10, s)
  if s.isEmpty then none
  else do
    let values ← ds.mapM hexValue?
    if values.all (· < base) then some (values.foldl (fun n d => n * base + d) 0) else none

/-- The parts of a dotted name; a final dot ends none. -/
def parts (s : List Char) : List (List Char) :=
  let ps := splitBy (· == '.') s
  if ps.length > 1 && ps.getLast? == some [] then ps.dropLast else ps

def endsInNumber (s : List Char) : Bool :=
  match (parts s).getLast? with
  | none => false
  | some last => !last.isEmpty && (last.all isDigit || (number? last).isSome)

/-- An address of up to four numbers. All but the last are one byte; the last fills the rest. -/
def ipv4? (s : List Char) : Option Nat := do
  let numbers ← (parts s).mapM number?
  let last ← numbers.getLast?
  let front := numbers.dropLast
  let room := Nat.pow 256 (5 - numbers.length)
  if 4 < numbers.length || front.any (255 < ·) || room ≤ last then none
  else some (front.foldl (fun n b => n * 256 + b) 0 * room + last)

/-- The four bytes of the address that may end an IPv6 address, each without leading zeros. -/
def dotted? (s : List Char) : Option (List Nat) := do
  let numbers ← (splitBy (· == '.') s).mapM fun p =>
    if p.isEmpty || !p.all isDigit || (p.length > 1 && p.head? == some '0') ||
        3 < p.length then none
    else
      let n := p.foldl (fun n c => n * 10 + (c.toNat - '0'.toNat)) 0
      if n < 256 then some n else none
  match numbers with
  | [a, b, c, d] => some [a * 256 + b, c * 256 + d]
  | _ => none

/-- One to four hexadecimal digits. -/
def piece? (s : List Char) : Option Nat := do
  if s.isEmpty || 4 < s.length then none
  let values ← s.mapM hexValue?
  return values.foldl (fun n d => n * 16 + d) 0

/-- The pieces between colons. The last ones may be written as a dotted address. -/
def pieces? (s : List Char) : Option (List Nat) :=
  if s.isEmpty then some []
  else
    let ps := splitBy (· == ':') s
    match ps.getLast? with
    | none => some []
    | some last =>
      if last.contains '.' then do
        return (← ps.dropLast.mapM piece?) ++ (← dotted? last)
      else ps.mapM piece?

/-- The text before and after the first `::`. -/
def splitGap (s : List Char) : List Char × Option (List Char) :=
  match s with
  | [] => ([], none)
  | ':' :: ':' :: rest => ([], some rest)
  | c :: rest =>
    let (before, after) := splitGap rest
    (c :: before, after)

/-- Eight pieces, of which a run of zeros may be left out as `::`. -/
def ipv6? (s : List Char) : Option (List Nat) := do
  match splitGap s with
  | (all, none) =>
    let ps ← pieces? all
    if ps.length == 8 then some ps else none
  | (before, some after) =>
    if before.contains '.' then none
    let front ← pieces? before
    let back ← pieces? after
    if front.length + back.length < 8 then
      some (front ++ List.replicate (8 - front.length - back.length) 0 ++ back)
    else none

/-- An address in brackets. -/
def bracketed (s : List Char) : Except Url.Fault Host :=
  if s.getLast? == some ']' then
    match ipv6? s.tail.dropLast with
    | some pieces => .ok (.ipv6 pieces)
    | none => .error .ipv6
  else .error .ipv6

/-- The host of a URL with a known scheme. -/
def parse (s : List Char) : Except Url.Fault Host :=
  if s.head? == some '[' then bracketed s
  else
    match Url.asciiDomain? (unescape s) with
    | none => .error .domain
    | some [] => .error .emptyHost
    | some domain =>
      if endsInNumber domain then
        match ipv4? domain with
        | some address => .ok (.ipv4 address)
        | none => .error .ipv4
      else .ok (.name (String.ofList domain))

/-- Characters that the host of no URL may hold. -/
def isForbidden (c : Char) : Bool :=
  ['\x00', '\t', '\n', '\r', ' ', '#', '/', ':', '<', '>', '?', '@', '[', '\\', ']', '^',
    '|'].contains c

/-- The host of a URL with another scheme. -/
def parsePlain (s : List Char) : Except Url.Fault Host :=
  if s.head? == some '[' then bracketed s
  else if s.any isForbidden then .error .hostCharacter
  else .ok (.name (String.ofList (escape (fun c => ' ' ≤ c && c < '\x7f') s)))

/-- The start and length of the first longest run of zeros. -/
def longestGap : Nat → List Nat → Nat × Nat
  | _, [] => (0, 0)
  | at_, n :: rest =>
    let best := longestGap (at_ + 1) rest
    let here := ((n :: rest).takeWhile (· == 0)).length
    if best.2 ≤ here then (at_, here) else best

def hexText (n : Nat) : String := String.ofList (Nat.toDigits 16 n)

/-- The pieces of an IPv6 address; the longest run of two or more zeros is left out. -/
def ipv6Text (pieces : List Nat) : String :=
  let (start, length) := longestGap 0 pieces
  let join (ps : List Nat) : String := ":".intercalate (ps.map hexText)
  if length < 2 then join pieces
  else join (pieces.take start) ++ "::" ++ join (pieces.drop (start + length))

def ipv4Text (address : Nat) : String :=
  ".".intercalate ([3, 2, 1, 0].map fun n => toString (address / Nat.pow 256 n % 256))

def text : Host → String
  | .name s => s
  | .ipv4 address => ipv4Text address
  | .ipv6 pieces => "[" ++ ipv6Text pieces ++ "]"

end Host

end Bindery
