/-!
# Punycode

Text of any characters written in ASCII: its ASCII characters, and after the last hyphen the places
of all others as differences in a number system of base 36 with thresholds that adapt.
-/
namespace Bindery.Text.Punycode

def digit (n : Nat) : Char :=
  if n < 26 then Char.ofNat ('a'.toNat + n) else Char.ofNat ('0'.toNat + (n - 26))

def value? (c : Char) : Option Nat :=
  if 'a' ≤ c && c ≤ 'z' then some (c.toNat - 'a'.toNat)
  else if 'A' ≤ c && c ≤ 'Z' then some (c.toNat - 'A'.toNat)
  else if '0' ≤ c && c ≤ '9' then some (c.toNat - '0'.toNat + 26)
  else none

/-- The threshold of a digit at the given place, a multiple of 36. It lies between 1 and 26. -/
def threshold (bias place : Nat) : Nat := max 1 (min 26 (place - bias))

theorem one_le_threshold (bias place : Nat) : 1 ≤ threshold bias place := Nat.le_max_left ..

theorem threshold_le (bias place : Nat) : threshold bias place ≤ 26 := by
  simp only [threshold]
  omega

/-- Scales a difference down until the thresholds can follow it. -/
def settle (delta places : Nat) : Nat :=
  if 455 < delta then settle (delta / 35) (places + 36)
  else places + 36 * delta / (delta + 38)
termination_by delta
decreasing_by exact Nat.div_lt_self (by omega) (by omega)

/-- The bias after a difference, when `count` characters have been placed. -/
def adapt (delta count : Nat) (first : Bool) : Nat :=
  let delta := if first then delta / 700 else delta / 2
  settle (delta + delta / count) 0

/-- The digits of a difference, lowest place first. -/
def digits (bias place delta : Nat) : List Char :=
  let t := threshold bias place
  if delta < t then [digit delta]
  else digit (t + (delta - t) % (36 - t)) :: digits bias (place + 36) ((delta - t) / (36 - t))
termination_by delta
decreasing_by
  have := one_le_threshold bias place
  have := Nat.div_le_self (delta - threshold bias place) (36 - threshold bias place)
  omega

/-- Where encoding stands: the difference since the last placed character. -/
structure Progress where
  delta : Nat
  bias : Nat
  count : Nat

/-- Passes over one character while the code point `n` is being placed. `basic` counts the ASCII
characters. -/
def place (n basic : Nat) (state : Progress × List Char) (c : Char) : Progress × List Char :=
  let (p, written) := state
  if c.toNat < n then ({ p with delta := p.delta + 1 }, written)
  else if c.toNat == n then
    (⟨0, adapt p.delta (p.count + 1) (p.count == basic), p.count + 1⟩,
      written ++ digits p.bias 36 p.delta)
  else state

/-- Places code points in ascending order, `low` being the least one still possible. -/
def placeAll (s : List Char) (basic : Nat) : List Nat → Nat → Progress → List Char
  | [], _, _ => []
  | n :: rest, low, p =>
    let p := { p with delta := p.delta + (n - low) * (p.count + 1) }
    let (p, written) := s.foldl (place n basic) (p, [])
    written ++ placeAll s basic rest (n + 1) { p with delta := p.delta + 1 }

def isAscii (c : Char) : Bool := c.toNat < 128

def encode (s : List Char) : List Char :=
  let basic := s.filter isAscii
  let others := ((s.filter (! isAscii ·)).map Char.toNat).mergeSort.eraseDups
  basic ++ (if basic.isEmpty then [] else ['-']) ++
    placeAll s basic.length others 128 ⟨0, 72, basic.length⟩

/-- A difference added to `sum`, and the digits after it. -/
def difference? (bias : Nat) : Nat → Nat → Nat → List Char → Option (Nat × List Char)
  | _, _, _, [] => none
  | place, weight, sum, c :: rest => do
    let d ← value? c
    let t := threshold bias place
    if d < t then some (sum + d * weight, rest)
    else difference? bias (place + 36) (weight * (36 - t)) (sum + d * weight) rest

/-- Inserts the characters whose places the digits tell. -/
def insertAll : Nat → List Char → Nat → Nat → Nat → List Char → Option (List Char)
  | 0, _, _, _, _, _ => none
  | _ + 1, [], _, _, _, done => some done
  | steps + 1, text, n, at_, bias, done => do
    let (sum, rest) ← difference? bias 36 1 at_ text
    let count := done.length + 1
    let n := n + sum / count
    if 0x10ffff < n || (0xd800 ≤ n && n ≤ 0xdfff) then none
    let at' := sum % count
    insertAll steps rest n (at' + 1) (adapt (sum - at_) count (at_ == 0))
      (done.take at' ++ Char.ofNat n :: done.drop at')

/-- The text a written form stands for. -/
def decode? (s : List Char) : Option (List Char) :=
  let tail := (s.reverse.takeWhile (· != '-')).reverse
  let basic := s.take (s.length - tail.length - 1)
  if basic.all isAscii then insertAll (tail.length + 1) tail 128 0 72 basic else none

end Bindery.Text.Punycode
