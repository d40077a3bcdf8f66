/-!
# Decimal numbers as binary ones read them

A number that is written in decimal is kept by most programs as the binary
number of 53 digits that is nearest to it, and when such a number is shown it is
shown with as few decimal digits as tell it apart from its neighbours.  So
`3.250` is shown as `3.25`, and a number with thirty digits loses most of them.

The binary number stands for all real numbers that round to it: an interval that
reaches half-way to either neighbour, its ends included when its last digit is
even.  `shortestDigits` looks for a decimal number in the interval, on the grid of
one digit, of two, and so on; on each grid only the two neighbours of the number
itself need to be tried, for if any point of the grid lies in the interval, one
of these does.  When both do the nearer one is taken, and the greater one when
they are equally near.  All of this is exact arithmetic on natural numbers.

What is found is shown without an exponent and with a point (`Decimal.shown?`),
however large or small it is.
-/

namespace DocSite

/-- A number `digits · 10 ^ exponent`, or its negative. -/
structure Decimal where
  negative : Bool
  digits : Nat
  exponent : Int
  deriving DecidableEq, Inhabited, Repr

namespace Decimal

/-- The number of decimal digits of a number; zero has one. -/
def digitCount (n : Nat) : Nat :=
  (Nat.toDigits 10 n).length

/-- A positive number of 53 binary digits: `mantissa · 2 ^ exponent`, and whether
the next smaller number is only half as far away as the next greater. -/
structure Binary where
  mantissa : Nat
  exponent : Int
  narrowBelow : Bool

/-- The binary number of 64 bits without their sign. -/
def Binary.ofBits (bits : UInt64) : Binary :=
  let fraction := (bits &&& 0xFFFFFFFFFFFFF).toNat
  let power := ((bits >>> 52) &&& 0x7FF).toNat
  if power = 0 then ⟨fraction, -1074, false⟩
  else ⟨fraction + Nat.pow 2 52, power - 1075, fraction = 0 && power > 1⟩

/-- A quarter of the distance to the next greater number, as a fraction. -/
def Binary.quarter (b : Binary) : Nat × Nat :=
  let e := b.exponent - 2
  if 0 ≤ e then (Nat.pow 2 e.toNat, 1) else (1, Nat.pow 2 (-e).toNat)

/-- The least `j` below a bound for which `n · 10 ^ j` reaches `d`. -/
def leadingZeros (n d : Nat) : Nat → Nat
  | 0 => 0
  | fuel + 1 => if d ≤ n then 0 else 1 + leadingZeros (10 * n) d fuel

/-- The position of the first digit of a positive `n / d`: one for units, two for
tens, zero for tenths. -/
def magnitude (n d : Nat) : Int :=
  if d ≤ n then digitCount (n / d) else 1 - (leadingZeros n d 400 : Int)

/-- The grid point of one of the numbers of digits from a given one up to
seventeen that is nearest to a binary number, if it lies in its interval. -/
def searchDigits (b : Binary) (count : Nat) : Nat → Nat × Int
  | 0 => (0, 0)
  | fuel + 1 =>
    let (unit, den) := b.quarter
    let value := 4 * b.mantissa * unit
    let low := (4 * b.mantissa - if b.narrowBelow then 1 else 2) * unit
    let high := (4 * b.mantissa + 2) * unit
    let k := magnitude value den - count
    -- Both sides are multiplied by what makes the grid step a whole number.
    let up := if 0 ≤ k then 1 else Nat.pow 10 (-k).toNat
    let step := (if 0 ≤ k then Nat.pow 10 k.toNat else 1) * den
    let inside (c : Nat) : Bool :=
      if b.mantissa % 2 = 0 then low * up ≤ c * step && c * step ≤ high * up
      else low * up < c * step && c * step < high * up
    let below := value * up / step
    let above := below + 1
    let nearerBelow := 2 * (value * up) < (below + above) * step
    match inside below, inside above with
    | true, true => (if nearerBelow then below else above, k)
    | true, false => (below, k)
    | false, true => (above, k)
    | false, false => searchDigits b (count + 1) fuel

/-- The shortest decimal number that a positive binary number is nearest to.  A
number just below a power of ten may have that power as its upper neighbour, and
then a zero is left at the end. -/
def shortestDigits (b : Binary) : Nat × Int :=
  let (digits, exponent) := searchDigits b 1 17
  if digits % 10 = 0 then (digits / 10, exponent + 1) else (digits, exponent)

/-- A number written without an exponent, and with at least one digit on either
side of the point. -/
def positional (digits : Nat) (exponent : Int) : String :=
  let text := Nat.toDigits 10 digits
  if 0 ≤ exponent then
    String.ofList (text ++ List.replicate exponent.toNat '0') ++ ".0"
  else
    let places := (-exponent).toNat
    let padded := List.replicate (places + 1 - text.length) '0' ++ text
    String.ofList (padded.take (padded.length - places)) ++ "."
      ++ String.ofList (padded.drop (padded.length - places))

/-- A decimal number as it is shown when it is kept as a binary one; none if it
is too large to be kept. -/
def shown? (d : Decimal) : Option String :=
  let sign := if d.negative then "-" else ""
  let size := digitCount d.digits + d.exponent
  if d.digits = 0 || size < -330 then some (sign ++ "0.0")
  else if size > 310 then none
  else
    let f := Float.ofScientific d.digits (d.exponent < 0) d.exponent.natAbs
    if f.isInf then none
    else if f == 0 then some (sign ++ "0.0")
    else
      let (digits, exponent) := shortestDigits (Binary.ofBits f.toBits)
      some (sign ++ positional digits exponent)

end Decimal
end DocSite
