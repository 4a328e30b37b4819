import BlindArena.Tracker.Basic

/-!
# Rewards

The reward of a step is the sum of its shares: what score and money gained, a small cost for the
step, the bonus for completing a blind, and the penalty for an action that had to be replaced. Only
gains count; a loss is worth nothing rather than something negative. Shares are single-precision
numbers, added from left to right.
-/

namespace BlindArena

namespace Reward

def perStep : Float32 := -0.01

/-- Paid once for each completed blind. -/
def blindBonus : Float32 := 1000.0

/-- One unit of money in points of score. -/
def moneyWeight : Float32 := 250.0

/-- For an action replaced by the first legal one. -/
def remapPenalty : Float32 := -10.0

/-- For an action replaced although none was legal. -/
def emptyPenalty : Float32 := -0.5

end Reward

namespace Tracker

/-- How far score and money moved up since the last settled step. -/
def gains (t : Tracker) : Except Overflow Snapshot := do
  let moved ← t.current.sub t.previous
  pure ⟨max moved.score 0, max moved.money 0⟩

end Tracker

structure Breakdown where
  score : Float32
  money : Float32
  step : Float32
  bonus : Float32
  remap : Float32

namespace Breakdown

def total (b : Breakdown) : Float32 := b.score + b.money + b.step + b.bonus + b.remap

def gain (b : Breakdown) : Float32 := b.score + b.money

def paid (b : Breakdown) : Bool := 0 < b.bonus

def ofGains (gains : Snapshot) (due : Bool) (remap : Float32) : Breakdown where
  score := Float32.ofInt gains.score
  money := Float32.ofInt gains.money * Reward.moneyWeight
  step := Reward.perStep
  bonus := if due then Reward.blindBonus else 0
  remap := remap

/-- The shares of a step that is observed and not yet settled. -/
def shape (t : Tracker) (phase : Option Phase) (remap : Float32) : Except Overflow Breakdown := do
  let gains ← t.gains
  pure (ofGains gains (t.bonusDue phase) remap)

@[simp] theorem paid_ofGains (gains : Snapshot) (due : Bool) (remap : Float32) :
    (ofGains gains due remap).paid = due := by
  cases due
  · show decide ((0 : Float32) < 0) = false
    decide
  · show decide (0 < Reward.blindBonus) = true
    decide

end Breakdown

end BlindArena
