import BlindArena.Decimal.Places
import BlindArena.Env.Transition
import BlindArena.Paint
import BlindArena.Text

/-!
# Summaries

The running totals of one episode. Each transition is counted by the view of the step that was
taken, also when a new episode has already begun in it.
-/

namespace BlindArena

structure Summary where
  seed : UInt64
  steps : Nat := 0
  reward : Float32 := 0
  remaps : Nat := 0
  blinds : Nat := 0
  phase : Option Phase := none
  ending : Option Ending := none

namespace Summary

/-- A summary takes forty bytes, and no more bytes than a signed 64-bit size can be taken at
once. -/
def maxKept : Nat := 0x7fffffffffffffff / 40

def absorb (s : Summary) (t : Transition) : Summary where
  seed := s.seed
  steps := s.steps + 1
  reward := s.reward + t.reward
  remaps := s.remaps + if t.last.info.remapped then 1 else 0
  blinds := s.blinds + if t.ending = some .blind then 1 else 0
  phase := t.last.info.phase
  ending := t.ending

/-- A new episode that has begun changes nothing about the one that ended. -/
theorem absorb_renewed {t : Transition} (h : t.terminal = none) (s : Summary) (opening : View) :
    s.absorb (t.renewed opening) = s.absorb t := by
  have hlast : (t.renewed opening).last = t.last := by
    rw [Transition.last_renewed, Transition.last, h]
    rfl
  simp only [absorb, hlast]
  rfl

def isDone (s : Summary) : Bool := s.ending.isSome

def endingText (colours : Bool) : Option Ending → String
  | some ending => Colour.green.paint colours ending.name
  | none => Colour.yellow.paint colours "Running"

def display (colours : Bool) (s : Summary) : String :=
  "seed " ++ Text.padRight 10 (toString s.seed.toNat)
    ++ " steps " ++ Text.padLeft 5 (toString s.steps)
    ++ " reward " ++ Text.padLeft 10 (fixedPlaces 2 s.reward)
    ++ " remaps " ++ Text.padLeft 4 (toString s.remaps)
    ++ " " ++ endingText colours s.ending

end Summary

end BlindArena
