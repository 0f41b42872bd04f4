/-!
# Shortest decimals

The decimal of a binary floating-point number is the one with the fewest digits among those that
round to it, and of these the nearest.  It is written positionally, without an exponent and with at
least one digit after the point.

A finite double is an integer times a power of two.  The numbers that round to it lie between the
midpoints to its neighbours, and a midpoint itself rounds to the even mantissa.  All of this is
computed exactly with integers over a common denominator.
-/

namespace TokenAudit.Decimal

/-- A positive rational number with the interval of numbers that round to it, as numerators over
one denominator. -/
structure Rounding where
  denominator : Nat
  value : Nat
  low : Nat
  high : Nat
  /-- Whether the ends of the interval belong to it. -/
  closed : Bool
  deriving DecidableEq, Repr

/-- The number `mantissa * 2 ^ exponent` and its interval.  Below a power of two the neighbour is
only half as far away, unless it is subnormal. -/
def Rounding.ofBinary (mantissa : Nat) (exponent : Int) (narrowBelow : Bool) : Rounding :=
  let scale := Nat.pow 2 (exponent - 2).toNat
  { denominator := Nat.pow 2 (2 - exponent).toNat
    value := 4 * mantissa * scale
    low := (4 * mantissa - if narrowBelow then 1 else 2) * scale
    high := (4 * mantissa + 2) * scale
    closed := mantissa % 2 == 0 }

/-- A multiple of a power of ten. -/
structure Scaled where
  digits : Nat
  exponent : Int
  deriving DecidableEq, Repr

/-- Whether a multiple of a power of ten lies in the interval. -/
def Rounding.admits (r : Rounding) (x : Scaled) : Bool :=
  let value := x.digits * Nat.pow 10 x.exponent.toNat * r.denominator
  let scale := Nat.pow 10 (-x.exponent).toNat
  if r.closed then r.low * scale ≤ value && value ≤ r.high * scale
  else r.low * scale < value && value < r.high * scale

/-- The greatest multiple of a power of ten that is not above the value. -/
def Rounding.floor (r : Rounding) (exponent : Int) : Nat :=
  r.value * Nat.pow 10 (-exponent).toNat / (r.denominator * Nat.pow 10 exponent.toNat)

/-- The nearer of the two multiples of a power of ten around the value that lie in the interval.
A tie goes to the even one. -/
def Rounding.onGrid? (r : Rounding) (exponent : Int) : Option Scaled :=
  let below := r.floor exponent
  let down : Scaled := ⟨below, exponent⟩
  let up : Scaled := ⟨below + 1, exponent⟩
  let twice := 2 * r.value * Nat.pow 10 (-exponent).toNat
  let middle := (2 * below + 1) * (r.denominator * Nat.pow 10 exponent.toNat)
  match r.admits down, r.admits up with
  | true, true =>
    if twice < middle then some down
    else if middle < twice then some up
    else if below % 2 = 0 then some down else some up
  | true, false => some down
  | false, true => some up
  | false, false => none

/-- The exponent of the leading digit of the value, at least the one given and at most so many
above it. -/
def Rounding.leadingExponent (r : Rounding) (least : Int) : Nat → Int
  | 0 => least
  | n + 1 =>
    if r.floor (least + 1) = 0 then least else leadingExponent r (least + 1) n

/-- The first hit on grids that become finer and finer. -/
def Rounding.firstHit (r : Rounding) (exponent : Int) : Nat → Scaled
  | 0 => ⟨r.floor exponent, exponent⟩
  | n + 1 => (r.onGrid? exponent).getD (firstHit r (exponent - 1) n)

/-- The shortest decimal in the interval.  The search begins one place above the leading digit, for
the power of ten just above the value, and seventeen digits are always enough for a double. -/
def Rounding.shortest (r : Rounding) : Scaled :=
  r.firstHit (r.leadingExponent (-324) 633 + 1) 18

/-- A multiple of a power of ten in positional notation. -/
def Scaled.positional (x : Scaled) : String :=
  let digits := Nat.toDigits 10 x.digits
  if 0 ≤ x.exponent then
    String.ofList (digits ++ List.replicate x.exponent.toNat '0') ++ ".0"
  else
    let places := (-x.exponent).toNat
    let padded := List.replicate (places + 1 - digits.length) '0' ++ digits
    let whole := padded.length - places
    String.ofList (padded.take whole ++ '.' :: padded.drop whole)

/-- A double in positional notation with the fewest digits that read back. -/
def ofFloat (x : Float) : String :=
  let bits := x.toBits.toNat
  let fraction := bits % Nat.pow 2 52
  let biased := bits / Nat.pow 2 52 % Nat.pow 2 11
  let sign := if Nat.pow 2 63 ≤ bits then "-" else ""
  if biased = 2047 then
    if fraction = 0 then sign ++ "inf" else "NaN"
  else if biased = 0 ∧ fraction = 0 then sign ++ "0.0"
  else
    let mantissa := if biased = 0 then fraction else Nat.pow 2 52 + fraction
    let exponent : Int := (if biased = 0 then 1 else biased : Nat) - 1075
    sign ++ (Rounding.ofBinary mantissa exponent (fraction = 0 && 1 < biased)).shortest.positional

end TokenAudit.Decimal
