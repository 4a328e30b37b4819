import BlindArena.Mask
import BlindArena.Tracker.Basic

/-!
# Observations

The view of an environment that a learner is given, of one shape in every phase: the phase's place,
the action mask, and ten numbers. Ante, round, hands and discards are not known and hold fixed
values.
-/

namespace BlindArena

structure GameInfo where
  score : Float32
  money : Float32
  ante : Float32
  round : Float32
  hands : Float32
  discards : Float32
  started : Float32
  finished : Float32
  steps : Float32
  phase : Float32

namespace GameInfo

def toList (g : GameInfo) : List Float32 :=
  [g.score, g.money, g.ante, g.round, g.hands, g.discards, g.started, g.finished, g.steps, g.phase]

@[simp] theorem length_toList (g : GameInfo) : g.toList.length = 10 := rfl

end GameInfo

structure Observation where
  phase : Nat
  available : Mask
  gameInfo : GameInfo

namespace Observation

def flag (b : Bool) : Float32 := if b then 1 else 0

def encode (phase : Option Phase) (legal : List Index) (t : Tracker) : Observation where
  phase := Phase.encode phase
  available := Mask.ofIndices legal
  gameInfo :=
    { score := Float32.ofInt t.current.score
      money := Float32.ofInt t.current.money
      ante := 1
      round := 1
      hands := 4
      discards := 3
      started := flag t.started
      finished := flag t.finished
      steps := Float32.ofNat t.steps
      phase := Float32.ofNat (Phase.encode phase) }

/-- The phase as one bit of six, then the mask, then the ten numbers. -/
def features (o : Observation) : List Float32 :=
  (List.range 6).map (fun i => flag (i == o.phase)) ++ o.available.bits.toList.map flag
    ++ o.gameInfo.toList

@[simp] theorem length_features (o : Observation) : o.features.length = 116 := by
  simp [features, actionSpace]

end Observation

end BlindArena
