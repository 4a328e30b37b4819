/-!
# Single-precision values

The magnitude of a finite single-precision number is `mantissa * 2 ^ exponent`, exactly. Sign and
the special values are read from the bits beside it.
-/

namespace BlindArena

structure Dyadic where
  mantissa : Nat
  exponent : Int
  /-- The gap to the value below is half the gap to the value above. -/
  narrowBelow : Bool
  deriving DecidableEq

namespace Dyadic

/-- The magnitude written in the bits of a finite number. -/
def ofBits (bits : UInt32) : Dyadic :=
  let field := (bits.toNat >>> 23) % 256
  let fraction := bits.toNat % 0x800000
  if field = 0 then ⟨fraction, -149, false⟩
  else ⟨0x800000 + fraction, (field : Int) - 150, fraction = 0 && 1 < field⟩

/-- Powers of two above and below the fraction line. -/
def up (d : Dyadic) : Nat := Nat.pow 2 d.exponent.toNat

def down (d : Dyadic) : Nat := Nat.pow 2 (-d.exponent).toNat

end Dyadic

/-- Whether the bits are those of a number, neither infinite nor undefined. -/
def isFinite (bits : UInt32) : Bool := (bits.toNat >>> 23) % 256 ≠ 255

def isNegative (bits : UInt32) : Bool := 0x80000000 ≤ bits.toNat

end BlindArena
