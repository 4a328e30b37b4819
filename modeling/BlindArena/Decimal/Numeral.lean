/-!
# Numerals

A decimal numeral as it is written: a sign, a whole part without leading zeros, and the text of the
fraction and exponent, empty for a whole number. Two numerals of one value may be written apart, so
the text is kept.
-/

namespace BlindArena

structure Numeral where
  negative : Bool
  whole : Nat
  tail : List Char
  deriving DecidableEq

namespace Numeral

def toList (n : Numeral) : List Char :=
  (if n.negative then ['-'] else []) ++ Nat.toDigits 10 n.whole ++ n.tail

def ofInt (x : Int) : Numeral where
  negative := x < 0
  whole := x.natAbs
  tail := []

/-- The whole number that is written; minus zero is none, nor is anything with a fraction or an
exponent. -/
def toInt? (n : Numeral) : Option Int :=
  if n.tail.isEmpty then
    if n.negative then
      if n.whole = 0 then none else some (-n.whole)
    else some n.whole
  else none

@[simp] theorem toInt?_ofInt (x : Int) : (ofInt x).toInt? = some x := by
  by_cases h : x < 0
  · have hx : x.natAbs ≠ 0 := by omega
    have hx' : -(x.natAbs : Int) = x := by omega
    simp only [ofInt, toInt?, h, hx, hx', List.isEmpty_nil, decide_true, if_true, if_false]
  · have hx : (x.natAbs : Int) = x := by omega
    simp only [ofInt, toInt?, h, hx, List.isEmpty_nil, decide_false, if_true, Bool.false_eq_true,
      if_false]

end Numeral

end BlindArena
