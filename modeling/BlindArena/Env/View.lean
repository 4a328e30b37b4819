import BlindArena.Observation
import BlindArena.Resolution

/-!
# Views

What an environment hands out at each decision point: the observation and the diagnostics that go
with it.
-/

namespace BlindArena

structure Info where
  phase : Option Phase
  status : Status
  valid : List Index
  score : Int
  money : Int
  /-- The requested action was replaced. -/
  remapped : Bool := false
  requested : Option Index := none
  effective : Option Index := none
  finished : Option Outcome
  tier : Tier

structure View where
  observation : Observation
  info : Info

namespace Info

def ofReport (report : Report) (t : Tracker) : Info where
  phase := report.phase
  status := report.status
  valid := t.legal
  score := t.current.score
  money := t.current.money
  finished := report.finished
  tier := t.tier

def resolved (info : Info) (resolution : Resolution) : Info :=
  { info with
    remapped := resolution.remapped
    requested := some resolution.requested
    effective := some resolution.effective }

end Info

namespace View

/-- The view after a reset. -/
def opening (report : Report) (t : Tracker) : View where
  observation := Observation.encode report.phase report.legal t
  info := Info.ofReport report t

/-- The view after a step. -/
def afterStep (report : Report) (t : Tracker) (resolution : Resolution) : View where
  observation := Observation.encode report.phase report.legal t
  info := (Info.ofReport report t).resolved resolution

end View

end BlindArena
