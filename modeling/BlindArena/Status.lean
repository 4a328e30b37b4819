import BlindArena.Enumeration
import BlindArena.Paint

/-!
# Statuses

What an engine did with a call: it is parked at a decision, it moved on by itself, or the run is
over.
-/

namespace BlindArena

inductive Status where
  | needsInput | progressed | finished
  deriving DecidableEq

namespace Status

def all : List Status := [needsInput, progressed, finished]

def name : Status → String
  | needsInput => "NeedsInput"
  | progressed => "Progressed"
  | finished => "Finished"

instance : Enumeration Status where
  all := all
  name := name
  mem_all a := by cases a <;> simp [all]
  nodup_names := by simp [all, name]

def colour : Status → Colour
  | needsInput => .white
  | progressed => .dim
  | finished => .red

def display (colours : Bool) (status : Status) : String := status.colour.paint colours status.name

end Status

end BlindArena
