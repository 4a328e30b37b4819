import BlindArena.Decimal.Dyadic
import BlindArena.Decimal.Numeral

/-!
# Shortest decimals

A number is written with the fewest digits that read back as the same single-precision value, and
among those with the ones nearest to it. A decimal reads back when it lies among the reals that
round to the value: between halfway to the neighbour below and halfway to the neighbour above, ends
included when the mantissa is even. Everything is decided by comparing naturals.
-/

namespace BlindArena

/-- The number `digits * 10 ^ exponent`. -/
structure Decimal where
  digits : Nat
  exponent : Int
  deriving DecidableEq

/-- The reals that round to one value: from `low / scale` to `high / scale`. -/
structure Interval where
  low : Nat
  high : Nat
  scale : Nat
  closed : Bool

namespace Dyadic

def interval (d : Dyadic) : Interval where
  low := (4 * d.mantissa - if d.narrowBelow then 1 else 2) * d.up
  high := (4 * d.mantissa + 2) * d.up
  scale := 4 * d.down
  closed := d.mantissa % 2 = 0

/-- Numerator and denominator of the value over the grid of multiples of `10 ^ exponent`. -/
def overGrid (d : Dyadic) (exponent : Int) : Nat × Nat :=
  (d.mantissa * d.up * Nat.pow 10 (-exponent).toNat, d.down * Nat.pow 10 exponent.toNat)

end Dyadic

namespace Interval

def contains (i : Interval) (x : Decimal) : Bool :=
  let middle := x.digits * Nat.pow 10 x.exponent.toNat * i.scale
  let low := i.low * Nat.pow 10 (-x.exponent).toNat
  let high := i.high * Nat.pow 10 (-x.exponent).toNat
  if i.closed then low ≤ middle && middle ≤ high else low < middle && middle < high

end Interval

namespace Decimal

/-- Zeros at the end of the digits are moved into the exponent. -/
def trim (x : Decimal) : Decimal :=
  if h : x.digits % 10 = 0 ∧ x.digits ≠ 0 then trim ⟨x.digits / 10, x.exponent + 1⟩ else x
termination_by x.digits
decreasing_by omega

/-- The nearer of the two multiples of `10 ^ exponent` around the value that reads back; the even
one when both are equally near. -/
def onGrid? (d : Dyadic) (exponent : Int) : Option Decimal :=
  let (num, den) := d.overGrid exponent
  let below := num / den
  let lower : Decimal := ⟨below, exponent⟩
  let upper : Decimal := ⟨below + 1, exponent⟩
  match d.interval.contains lower, d.interval.contains upper with
  | false, false => none
  | true, false => some lower
  | false, true => some upper
  | true, true =>
    match compare (2 * (num % den)) den with
    | .lt => some lower
    | .gt => some upper
    | .eq => some (if below % 2 = 0 then lower else upper)

def exact (d : Dyadic) : Decimal :=
  ⟨d.mantissa * d.up * Nat.pow 5 (-d.exponent).toNat, min d.exponent 0⟩

/-- The least `k` with the value below `10 ^ k`. The binary logarithm gives it up to a step. -/
def magnitude (d : Dyadic) : Int :=
  let estimate := ((d.mantissa.log2 : Int) + d.exponent) * 30103 / 100000
  let fits (k : Int) : Bool := let (num, den) := d.overGrid k; num < den
  if fits estimate then estimate
  else if fits (estimate + 1) then estimate + 1
  else estimate + 2

/-- Nine digits tell any two single-precision values apart, so the grids of one to nine digits are
tried, coarsest first. -/
def shortest (d : Dyadic) : Decimal :=
  let k := magnitude d
  (((List.range 9).findSome? fun n => onGrid? d (k - (n + 1 : Nat))).getD (exact d)).trim

end Decimal

/-- How a number is laid out. -/
structure Layout where
  /-- Numbers whose leading digit stands in these places are written without an exponent. -/
  plain : Int → Bool
  /-- A whole number keeps a point and a zero. -/
  pointZero : Bool

namespace Layout

/-- Positional from a millionth up to thirteen digits, a whole number keeps its point, and an
exponent keeps its sign. -/
def wire : Layout := ⟨fun place => -6 ≤ place && place ≤ 12, true⟩

/-- Always positional, and a whole number is written as one. -/
def positional : Layout := ⟨fun _ => true, false⟩

def fraction (width : Nat) (digits : Nat) : List Char :=
  let text := Nat.toDigits 10 digits
  '.' :: (List.replicate (width - text.length) '0' ++ text)

def magnitude (layout : Layout) (x : Decimal) : Nat × List Char :=
  let digits := Nat.toDigits 10 x.digits
  let place : Int := x.exponent + (digits.length : Int) - 1
  if layout.plain place then
    if 0 ≤ x.exponent then
      (x.digits * Nat.pow 10 x.exponent.toNat, if layout.pointZero then ['.', '0'] else [])
    else
      let width := (-x.exponent).toNat
      (x.digits / Nat.pow 10 width, fraction width (x.digits % Nat.pow 10 width))
  else
    let width := digits.length - 1
    let sign := if 0 ≤ place then '+' else '-'
    let rest := if width = 0 then [] else fraction width (x.digits % Nat.pow 10 width)
    (x.digits / Nat.pow 10 width, rest ++ 'e' :: sign :: Nat.toDigits 10 place.natAbs)

/-- The numeral of a number, if it is one. -/
def numeral? (layout : Layout) (x : Float32) : Option Numeral :=
  if isFinite x.toBits then
    let d := Dyadic.ofBits x.toBits
    let (whole, tail) := layout.magnitude (if d.mantissa = 0 then ⟨0, 0⟩ else Decimal.shortest d)
    some ⟨isNegative x.toBits, whole, tail⟩
  else none

end Layout

end BlindArena
