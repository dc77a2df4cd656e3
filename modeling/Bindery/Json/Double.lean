/-!
# Decimal text of double precision numbers

The shortest decimal that reads back as a given double, and the double a decimal is read as.
-/
namespace Bindery.Json

/-- A positive double as `mantissa * 2 ^ exponent`. The interval of reals that round to it reaches
half a unit up and half a unit down, or a quarter down where the next lower double is closer. -/
structure Binary where
  mantissa : Nat
  exponent : Int
  closerBelow : Bool
  deriving DecidableEq, Repr

/-- A decimal `digits * 10 ^ exponent`. -/
structure Decimal where
  digits : Nat
  exponent : Int
  deriving DecidableEq, Repr

def Binary.ofBits (bits : Nat) : Binary :=
  let fraction : Nat := bits % 0x10000000000000
  let biased : Nat := bits / 0x10000000000000 % 0x800
  if biased == 0 then ⟨fraction, -1074, false⟩
  else ⟨fraction + 0x10000000000000, (biased : Int) - 1075, fraction == 0 && biased > 1⟩

/-- `n * base ^ e` as a fraction. -/
def scaled (n base : Nat) (e : Int) : Nat × Nat :=
  if e < 0 then (n, Nat.pow base (-e).toNat) else (n * Nat.pow base e.toNat, 1)

/-- Whether the fraction `a` is below the fraction `b`, or equal to it if `orEqual`. -/
def fractionBelow (orEqual : Bool) (a b : Nat × Nat) : Bool :=
  if orEqual then a.1 * b.2 ≤ b.1 * a.2 else a.1 * b.2 < b.1 * a.2

/-- Whether a decimal reads back as the given double. -/
def Binary.covers (x : Binary) (d : Decimal) : Bool :=
  let even := x.mantissa % 2 == 0
  let value := scaled d.digits 10 d.exponent
  let low := scaled (4 * x.mantissa - (if x.closerBelow then 1 else 2)) 2 (x.exponent - 2)
  let high := scaled (4 * x.mantissa + 2) 2 (x.exponent - 2)
  fractionBelow even low value && fractionBelow even value high

/-- The power of ten of the leading digit of a positive fraction. -/
def leadingPower (v : Nat × Nat) : Int :=
  let guess : Int := (Nat.toDigits 10 v.1).length - (Nat.toDigits 10 v.2).length
  if fractionBelow true (scaled 1 10 guess) v then guess else guess - 1

/-- The neighbours of a double on the grid of multiples of `10 ^ e`, the nearer one first and on a
tie the even one. -/
def Binary.neighbours (x : Binary) (e : Int) : List Decimal :=
  let v := scaled x.mantissa 2 x.exponent
  let grid := scaled 1 10 e
  let num := v.1 * grid.2
  let den := v.2 * grid.1
  let floor := num / den
  let twice := 2 * (num % den)
  let down : Decimal := ⟨floor, e⟩
  let up : Decimal := ⟨floor + 1, e⟩
  if twice < den || twice == den && floor % 2 == 0 then [down, up] else [up, down]

/-- The decimal with the fewest digits that reads back as the double, the nearest of those. -/
def Binary.shortest (x : Binary) : Decimal :=
  let lead := leadingPower (scaled x.mantissa 2 x.exponent)
  let grids := (List.range 17).map fun (n : Nat) => x.neighbours (lead - (n : Int))
  match grids.findSome? (·.find? x.covers) with
  | some d => d
  | none => ⟨0, 0⟩

def digitChars (n : Nat) : List Char := Nat.toDigits 10 n

/-- Places the point in the digits of a positive decimal. The exponent of the leading digit is
written out when it is below -5 or above 15, with a sign and at least two digits. -/
def Decimal.text (d : Decimal) : List Char :=
  let ds := digitChars d.digits
  let lead : Int := d.exponent + ds.length - 1
  if lead < -5 || lead ≥ 16 then
    let fraction := match ds.tail with
      | [] => []
      | more => '.' :: more
    let size := digitChars lead.natAbs
    ds.take 1 ++ fraction ++ ['e', if lead < 0 then '-' else '+']
      ++ List.replicate (2 - size.length) '0' ++ size
  else if lead < 0 then
    ['0', '.'] ++ List.replicate ((-lead).toNat - 1) '0' ++ ds
  else
    let whole := lead.toNat + 1
    let fraction := match ds.drop whole with
      | [] => ['0']
      | more => more
    ds.take whole ++ List.replicate (whole - ds.length) '0' ++ '.' :: fraction

/-- Drops final zeros from the digits, which leaves the value as it is. -/
def Decimal.trim (d : Decimal) : Decimal :=
  let zeros := ((digitChars d.digits).reverse.takeWhile (· == '0')).length
  if d.digits == 0 then d else ⟨d.digits / Nat.pow 10 zeros, d.exponent + zeros⟩

/-- The text of a finite double. -/
def doubleText (x : Float) : List Char :=
  let bits := x.toBits.toNat
  let sign := if bits ≥ 0x8000000000000000 then ['-'] else []
  let body := Binary.ofBits (bits % 0x8000000000000000)
  sign ++ if body.mantissa == 0 then ['0', '.', '0'] else body.shortest.trim.text

def powerOfTen (n : Nat) : Float := Float.ofScientific 1 false n

/-- Divides by `10 ^ n` in steps of at most 308 places. -/
def shrink (x : Float) (n : Nat) : Nat → Float
  | 0 => x
  | steps + 1 =>
    if n ≤ 308 then x / powerOfTen n
    else if x == 0 then x
    else shrink (x / powerOfTen 308) (n - 308) steps

/-- The double read for `significand * 10 ^ exponent`: one rounded product or quotient with a power
of ten. None when the result is too large. -/
def doubleOf (positive : Bool) (significand : Nat) (exponent : Int) : Option Float :=
  let base := significand.toUInt64.toFloat
  let magnitude :=
    if exponent < 0 then some (shrink base (-exponent).toNat 4)
    else if exponent ≤ 308 then
      let product := base * powerOfTen exponent.toNat
      if product.isInf then none else some product
    else if base == 0 then some base
    else none
  magnitude.map fun m => if positive then m else -m

end Bindery.Json
