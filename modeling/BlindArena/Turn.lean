import BlindArena.Ending
import BlindArena.Reward

/-!
# Turns

What one step does to the bookkeeping: count it, observe its report, shape its reward, settle, and
decide whether the episode ends.
-/

namespace BlindArena

structure Turn where
  tracker : Tracker
  shaped : Breakdown
  ending : Option Ending

namespace Tracker

def turn (t : Tracker) (report : Report) (read : Option Snapshot) (penalty : Float32)
    (budget : Nat) : Except Overflow Turn := do
  let seen ← t.tick.observe report read
  let shaped ← Breakdown.shape seen report.phase penalty
  let settled := seen.settle shaped.paid
  pure ⟨settled, shaped, Ending.decide report settled budget⟩

end Tracker

end BlindArena
