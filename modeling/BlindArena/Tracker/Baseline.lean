import BlindArena.Enumeration
import BlindArena.Snapshot
import BlindArena.Text

/-!
# Baselines

The absolute figures from which a blind's own figures are counted, and where they came from: read
from the engine, or carried over from the bookkeeping when the engine could not be asked.
-/

namespace BlindArena

/-- Where figures came from. -/
inductive Tier where
  | engine | carried
  deriving DecidableEq

namespace Tier

def name : Tier → String
  | engine => "Engine"
  | carried => "Local"

instance : Inhabited Tier := ⟨carried⟩

instance : Enumeration Tier where
  all := [engine, carried]
  name := name
  mem_all a := by cases a <;> simp
  nodup_names := by simp [name]

end Tier

structure Baseline where
  tier : Tier
  figures : Snapshot
  deriving DecidableEq

namespace Baseline

/-- A fresh read always wins. Figures carried over fill the place only when the engine was never
read in this cycle. -/
def capture (existing : Option Baseline) (read : Option Snapshot) (carried : Snapshot) : Baseline :=
  match read, existing with
  | some figures, _ => ⟨.engine, figures⟩
  | none, some ⟨.engine, figures⟩ => ⟨.engine, figures⟩
  | none, _ => ⟨.carried, carried⟩

@[simp] theorem capture_some (existing : Option Baseline) (figures carried : Snapshot) :
    capture existing (some figures) carried = ⟨.engine, figures⟩ := rfl

@[simp] theorem capture_none_engine (figures carried : Snapshot) :
    capture (some ⟨.engine, figures⟩) none carried = ⟨.engine, figures⟩ := rfl

def text (baseline : Baseline) : String :=
  baseline.tier.name ++ "(Snapshot \x7b score: " ++ toString baseline.figures.score ++ ", money: "
    ++ toString baseline.figures.money ++ " \x7d)"

end Baseline

end BlindArena
