import Machine8086.Numeral

/-!
# Shortest decimals

The decimal number with the fewest digits that reads back as a given 64-bit floating-point number,
and of those the nearest one; of two that are equally near the one with an even last digit. A number
is taken apart into `mantissa * 2 ^ exponent`; the reals that round to it form an interval, which
holds its ends if the mantissa is even. For one digit, two digits and so on up to seventeen, the two
neighbours of the number on that decimal grid are tried; the first grid with a neighbour in the
interval wins.
-/

namespace Machine8086.Decimal

/-- A finite floating-point number without its sign. -/
structure Binary where
  mantissa : Nat
  exponent : Int
  /-- The gap below is half the gap above: the mantissa is the least of its exponent. -/
  boundary : Bool
  deriving DecidableEq, Repr

/-- Takes apart the magnitude of the number with these 64 bits. -/
def Binary.ofBits (bits : UInt64) : Binary :=
  let fraction : Nat := bits.toNat % Nat.pow 2 52
  let biased : Nat := bits.toNat / Nat.pow 2 52 % Nat.pow 2 11
  -- without a biased exponent there is no hidden leading bit either
  if biased = 0 then ⟨fraction, -1074, false⟩
  else ⟨Nat.pow 2 52 + fraction, (biased : Int) - 1075, fraction = 0 && 1 < biased⟩

/-- The number `digits * 10 ^ exponent`. -/
structure Scaled where
  digits : Nat
  exponent : Int
  deriving DecidableEq, Repr

/-- A number and the interval of reals that round to it, over one denominator. -/
structure Interval where
  low : Nat
  value : Nat
  high : Nat
  denominator : Nat
  closed : Bool

/-- The interval of a number, in quarters of its last place. -/
def Binary.interval (b : Binary) : Interval :=
  let up := Nat.pow 2 b.exponent.toNat
  -- half a place is two quarters; below a boundary the places are half as wide
  { low := (4 * b.mantissa - if b.boundary then 1 else 2) * up
    value := 4 * b.mantissa * up
    high := (4 * b.mantissa + 2) * up
    denominator := 4 * Nat.pow 2 (-b.exponent).toNat
    closed := b.mantissa % 2 = 0 }

namespace Interval

/-- Numerator and denominator of `10 ^ exponent`. -/
def powerOfTen (exponent : Int) : Nat × Nat :=
  (Nat.pow 10 exponent.toNat, Nat.pow 10 (-exponent).toNat)

/-- The decimal lies in the interval. -/
def contains (i : Interval) (d : Scaled) : Bool :=
  let (num, den) := powerOfTen d.exponent
  let point := d.digits * num * i.denominator
  if i.closed then i.low * den ≤ point && point ≤ i.high * den
  else i.low * den < point && point < i.high * den

/-- Distance of the decimal from the number, over a denominator that depends on the exponent. -/
def distance (i : Interval) (d : Scaled) : Nat :=
  let (num, den) := powerOfTen d.exponent
  let point := d.digits * num * i.denominator
  let value := i.value * den
  (point - value) + (value - point)

/-- The place of the leading digit: the least `k` with the number below `10 ^ k`, sought upwards
from `k`. -/
def magnitudeFrom (i : Interval) : Nat → Int → Int
  | 0, k => k
  | fuel + 1, k =>
    let (num, den) := powerOfTen k
    if i.value * den < num * i.denominator then k else magnitudeFrom i fuel (k + 1)

/-- The place of the leading digit. -/
def magnitude (i : Interval) : Int := i.magnitudeFrom 700 (-330)

/-- The better of the two neighbours on the grid of `count` digits, if one is in the interval. -/
def neighbour? (i : Interval) (count : Nat) : Option Scaled :=
  let exponent := i.magnitude - count
  let (num, den) := powerOfTen exponent
  let below : Scaled := ⟨i.value * den / (num * i.denominator), exponent⟩
  let above : Scaled := ⟨below.digits + 1, exponent⟩
  match i.contains below, i.contains above with
  | true, true =>
    -- of equally near neighbours the even one
    some <| match compare (i.distance below) (i.distance above) with
      | .lt => below
      | .gt => above
      | .eq => if below.digits % 2 = 0 then below else above
  | true, false => some below
  | false, true => some above
  | false, false => none

/-- The shortest decimal of the interval. -/
def shortest (i : Interval) : Scaled :=
  ((List.range' 1 17).findSome? i.neighbour?).getD ⟨0, 0⟩

end Interval

/-- Where the decimal point may stand, counted from before the first digit, for a number to be
written without an exponent. -/
structure Style where
  leastPoint : Int
  greatestPoint : Int

/-- Drops trailing zeros; a list of zeros alone becomes empty. -/
def withoutTrailingZeros (digits : List Char) : List Char :=
  (digits.reverse.dropWhile (· == '0')).reverse

/-- Digits with the point after the first `point` of them; at least one digit on either side. -/
def positional (digits : List Char) (point : Int) : String :=
  let places := digits.length - point.toNat
  let whole := digits.take point.toNat ++ List.replicate (point.toNat - digits.length) '0'
  let fraction := List.replicate (-point).toNat '0' ++ digits.drop point.toNat
  String.ofList (if whole.isEmpty then ['0'] else whole) ++ "." ++
    String.ofList (if places = 0 then ['0'] else fraction)

/-- Digits with the point after the first of them and a signed exponent. -/
def scientific (digits : List Char) (point : Int) : String :=
  let exponent := point - 1
  String.ofList (digits.take 1) ++
    (if digits.length ≤ 1 then "" else "." ++ String.ofList (digits.drop 1)) ++
    (if exponent < 0 then "e-" else "e+") ++ Numeral.decimal exponent.natAbs

/-- Text of a decimal that is not zero. -/
def Scaled.text (style : Style) (d : Scaled) : String :=
  let all := Nat.toDigits 10 d.digits
  let point := (all.length : Int) + d.exponent
  let digits := withoutTrailingZeros all
  if style.leastPoint ≤ point ∧ point ≤ style.greatestPoint then positional digits point
  else scientific digits point

/-- Text of a finite floating-point number: the shortest decimal that reads back. -/
def floatText (style : Style) (x : Float) : String :=
  let bits := x.toBits
  let sign := if bits.toNat / Nat.pow 2 63 % 2 = 1 then "-" else ""
  let b := Binary.ofBits bits
  sign ++ if b.mantissa = 0 then "0.0" else b.interval.shortest.text style

end Machine8086.Decimal
