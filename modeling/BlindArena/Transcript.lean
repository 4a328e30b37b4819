import BlindArena.Amount
import BlindArena.Terminal.Console

/-!
# Transcripts

Everything a call writes on its way, in order: what it does to the console and the records it logs.
-/

namespace BlindArena

/-- How much a record matters, most first. -/
inductive Level where
  | warn | info | debug | trace
  deriving DecidableEq

namespace Level

def name : Level → String
  | warn => "WARN"
  | info => "INFO"
  | debug => "DEBUG"
  | trace => "TRACE"

/-- A logger that admits one level admits all that matter more. -/
def admits : Level → Level → Bool
  | trace, _ => true
  | debug, level => level ≠ trace
  | info, level => level = warn || level = info
  | warn, level => level = warn

end Level

structure Record where
  level : Level
  text : String
  deriving DecidableEq

/-- The line a logger writes. -/
def Record.line (r : Record) : String := "[" ++ r.level.name ++ "] " ++ r.text

inductive Event where
  | act (action : Console.Action)
  | note (record : Record)
  deriving DecidableEq

abbrev Transcript := List Event

namespace Transcript

def line (text : String) : Event := .act (.write .out (text ++ "\n"))

def written (output : List Output) : Transcript :=
  output.map fun o => .act (.write o.channel o.text)

def log (level : Level) (text : String) : Event := .note ⟨level, text⟩

/-- Under a guard of silence, if quiet. -/
def silenced (quiet : Bool) (t : Transcript) : Transcript :=
  if quiet then .act .acquire :: t ++ [.act .release] else t

def actions (t : Transcript) : List Console.Action :=
  t.filterMap fun
    | .act action => some action
    | .note _ => none

def records (t : Transcript) (level : Level) : List Record :=
  t.filterMap fun
    | .act _ => none
    | .note record => if level.admits record.level then some record else none

/-- A terminal logger writes the records it admits as lines of output. -/
def logged (level : Level) (t : Transcript) : List Console.Action :=
  t.filterMap fun
    | .act action => some action
    | .note record =>
      if level.admits record.level then
        some (.write .out (record.line ++ "\n"))
      else none

@[simp] theorem actions_append (t u : Transcript) : actions (t ++ u) = actions t ++ actions u := by
  simp [actions]

@[simp] theorem records_append (t u : Transcript) (level : Level) :
    records (t ++ u) level = records t level ++ records u level := by
  simp [records]

end Transcript

/-- An overflow and everything that was written before it. No state is left. -/
structure Interruption where
  cause : Overflow
  transcript : Transcript

/-- More was written before. -/
def Interruption.after (said : Transcript) (i : Interruption) : Interruption :=
  { i with transcript := said ++ i.transcript }

/-- An answer, the state after it, and what was written on the way. -/
structure Reply (σ α : Type) where
  answer : α
  state : σ
  transcript : Transcript

end BlindArena
