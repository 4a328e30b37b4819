import BlindArena.Decimal.Shortest
import BlindArena.Env.Transition
import BlindArena.Rollout.Summary
import BlindArena.Wire.Report

/-!
# Transitions on the wire

The JSON forms of what environments and rollouts hand out. Masks are written as a row of ones and
zeros, single-precision numbers with the fewest digits that read back.
-/

namespace BlindArena
open Json

/-- A number that is none is written as null. -/
def Json.single (x : Float32) : Json := (Layout.wire.numeral? x).elim .null .number

namespace Mask

def toJson (m : Mask) : Json :=
  .array (m.bits.toList.map fun b => nat (if b then 1 else 0))

end Mask

namespace Observation

def toJson (o : Observation) : Json :=
  record
    [("phase", nat o.phase),
      ("available", o.available.toJson),
      ("game_info", .array (o.gameInfo.toList.map single))]

end Observation

namespace Info

def toJson (i : Info) : Json :=
  record
    [("phase", nullable named i.phase),
      ("status", named i.status),
      ("valid_actions", .array (i.valid.map nat)),
      ("score", int i.score),
      ("money", int i.money),
      ("action_mapped", .bool i.remapped),
      ("original_action", nullable nat i.requested),
      ("mapped_action", nullable nat i.effective),
      ("finished", nullable Outcome.toJson i.finished),
      ("tier", named i.tier)]

end Info

namespace View

def toJson (v : View) : Json := .array [v.observation.toJson, v.info.toJson]

end View

namespace Transition

def toJson (t : Transition) : Json :=
  record
    [("observation", t.view.observation.toJson),
      ("reward", single t.reward),
      ("terminated", .bool t.terminated),
      ("truncated", .bool t.truncated),
      ("info", t.view.info.toJson),
      ("ending", nullable named t.ending),
      ("terminal", nullable View.toJson t.terminal)]

end Transition

namespace Resolution

def toJson (r : Resolution) : Json :=
  record
    [("requested", nat r.requested),
      ("effective", nat r.effective),
      ("penalty", single r.penalty),
      ("remapped", .bool r.remapped)]

end Resolution

namespace Summary

def toJson (s : Summary) : Json :=
  record
    [("seed", word s.seed),
      ("steps", nat s.steps),
      ("reward", single s.reward),
      ("remaps", nat s.remaps),
      ("blinds", nat s.blinds),
      ("phase", nullable named s.phase),
      ("ending", nullable named s.ending)]

end Summary

end BlindArena
