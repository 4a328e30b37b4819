import BlindArena.Phase
import BlindArena.Status

/-!
# Reports

What an engine says after a call: its status, the visible phase if it has one, the choices on offer
in its own order, and how the run ended if it is over. Choices are known by their index.
-/

namespace BlindArena

/-- The number by which an engine knows a choice. -/
abbrev Index := Nat

structure Choice where
  index : Index
  label : String
  deriving DecidableEq

structure Outcome where
  restart : Bool
  deriving DecidableEq

structure Report where
  status : Status
  phase : Option Phase
  actions : List Choice := []
  finished : Option Outcome := none
  deriving DecidableEq

namespace Report

/-- The engine waits for one of these choices. -/
def input (phase : Phase) (actions : List Choice) : Report where
  status := .needsInput
  phase := some phase
  actions := actions

/-- The engine moved on without a choice. -/
def progressed (phase : Option Phase) : Report where
  status := .progressed
  phase := phase

/-- The run is over. -/
def ended (phase : Option Phase) (restart : Bool) : Report where
  status := .finished
  phase := phase
  finished := some ⟨restart⟩

def legal (report : Report) : List Index := report.actions.map (·.index)

/-- The engine waits for a choice and offers none. -/
def starved (report : Report) : Bool := report.status = .needsInput && report.actions.isEmpty

@[simp] theorem legal_input (phase : Phase) (actions : List Choice) :
    (input phase actions).legal = actions.map (·.index) := rfl

@[simp] theorem legal_progressed (phase : Option Phase) : (progressed phase).legal = [] := rfl

@[simp] theorem legal_ended (phase : Option Phase) (restart : Bool) :
    (ended phase restart).legal = [] := rfl

end Report

end BlindArena
