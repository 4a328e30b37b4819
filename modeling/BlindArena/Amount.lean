/-!
# Amounts

Scores and sums of money are signed 64-bit amounts. Their arithmetic is exact: a difference that
does not fit is an overflow, which ends the computation that asked for it.
-/

namespace BlindArena

/-- The computation cannot go on. -/
inductive Overflow where
  /-- A difference does not fit in an amount. -/
  | subtraction
  /-- More is to be kept than there can be room for. -/
  | capacity
  deriving DecidableEq

def Overflow.message : Overflow → String
  | subtraction => "attempt to subtract with overflow"
  | capacity => "capacity overflow"

namespace Amount

def Fits (x : Int) : Prop := -0x8000000000000000 ≤ x ∧ x ≤ 0x7fffffffffffffff

instance (x : Int) : Decidable (Fits x) := inferInstanceAs (Decidable (_ ∧ _))

def sub (a b : Int) : Except Overflow Int :=
  if Fits (a - b) then .ok (a - b) else .error .subtraction

theorem sub_of_fits {a b : Int} (h : Fits (a - b)) : sub a b = .ok (a - b) := if_pos h

theorem sub_eq_ok_iff {a b d : Int} : sub a b = .ok d ↔ d = a - b ∧ Fits (a - b) := by
  unfold sub
  split
  · simp_all [eq_comm]
  · simp_all

end Amount

end BlindArena
