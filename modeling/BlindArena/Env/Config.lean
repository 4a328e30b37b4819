import BlindArena.Deck
import BlindArena.Stake

/-!
# Settings of an environment

The engine's seed is drawn at random when none is set.
-/

namespace BlindArena

structure Config where
  seed : Option UInt64 := none
  deck : Deck := .red
  stake : Stake := .white
  /-- The most steps an episode may take. -/
  budget : Nat := 1000
  /-- Engine output is silenced. -/
  quiet : Bool := true
  deriving DecidableEq

namespace Config

def seeded (config : Config) (seed : UInt64) : Config := { config with seed := some seed }

def loud (config : Config) : Config := { config with quiet := false }

def withBudget (config : Config) (budget : Nat) : Config := { config with budget := budget }

/-- A seed below two to the thirty-first, from a random word. -/
def drawnSeed (word : UInt64) : UInt64 := word >>> 33

/-- The seed that is set, or else one drawn with the given word. -/
def seedOr (config : Config) (word : UInt64) : UInt64 := config.seed.getD (drawnSeed word)

end Config

end BlindArena
