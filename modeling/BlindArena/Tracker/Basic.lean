import BlindArena.Report
import BlindArena.Tracker.Baseline
import BlindArena.Transcript

/-!
# The tracker

An environment's bookkeeping across steps. It follows the visible phase and derives from it how far
the present blind has come: a blind starts when play is entered, is finished by the round end after
it, and selecting a blind opens a new cycle. Score and money are counted from the blind's baseline;
`previous` holds them as of the last settled step.
-/

namespace BlindArena

structure Tracker where
  phase : Option Phase := none
  prevPhase : Option Phase := none
  started : Bool := false
  finished : Bool := false
  /-- The completion bonus of this cycle has been paid. -/
  paid : Bool := false
  baseline : Option Baseline := none
  current : Snapshot := {}
  previous : Snapshot := {}
  tier : Tier := .carried
  steps : Nat := 0
  /-- The indices last offered. -/
  legal : List Index := []
  deriving DecidableEq

namespace Tracker

/-- The report is the latest one. -/
def arrive (t : Tracker) (report : Report) : Tracker :=
  { t with phase := report.phase, prevPhase := report.phase, legal := report.legal }

/-- The first report of a run; it starts no blind. -/
def begin (report : Report) : Tracker := ({} : Tracker).arrive report

def tick (t : Tracker) : Tracker := { t with steps := t.steps + 1 }

def openCycle (t : Tracker) : Tracker :=
  { t with started := false, finished := false, paid := false, baseline := none }

def startBlind (t : Tracker) (read : Option Snapshot) : Tracker :=
  { t with started := true, baseline := some (Baseline.capture t.baseline read t.current) }

/-- Figures that are read replace the present ones; without a read those stand. -/
def refresh (t : Tracker) (read : Option Snapshot) : Except Overflow Tracker :=
  match read, t.baseline with
  | some absolute, some baseline =>
    (absolute.sub baseline.figures).map fun current =>
      { t with current := current, tier := .engine }
  | _, _ => .ok { t with tier := .carried }

/-- Play is entered by this phase. -/
def enters (t : Tracker) (phase : Option Phase) : Bool :=
  phase = some .playing && t.prevPhase ≠ some .playing

/-- The engine's figures are wanted for a report of this phase. -/
def wantsRead (t : Tracker) (phase : Option Phase) : Bool :=
  match phase with
  | some .playing => t.enters phase || t.started
  | some .roundEnd => t.started
  | _ => false

def finishBlind (t : Tracker) (read : Option Snapshot) : Except Overflow Tracker :=
  refresh { t with finished := true } read

/-- What a phase does to the blind. -/
def follow (t : Tracker) (phase : Option Phase) (read : Option Snapshot) :
    Except Overflow Tracker :=
  match phase with
  | some .blindSelect => .ok t.openCycle
  | some .playing =>
    if t.enters phase then .ok (t.startBlind read)
    else if t.started then t.refresh read
    else .ok t
  | some .roundEnd => if t.started then t.finishBlind read else .ok t
  | _ => .ok t

/-- A report is folded into the bookkeeping, with the figures read for it if they were wanted. -/
def observe (t : Tracker) (report : Report) (read : Option Snapshot) : Except Overflow Tracker :=
  (t.follow report.phase read).map fun t => t.arrive report

/-- The step is over: gains are counted from here, and a bonus paid stays paid for the cycle. -/
def settle (t : Tracker) (bonus : Bool) : Tracker :=
  { t with previous := t.current, paid := t.paid || bonus }

/-- The completion bonus is owed for a report of this phase. -/
def bonusDue (t : Tracker) (phase : Option Phase) : Bool :=
  phase = some .roundEnd && t.started && t.finished && !t.paid

/-! ## Log texts -/

def phaseText : Option Phase → String := Text.option Phase.name

def startedText (t : Tracker) : String :=
  "blind started with baseline " ++ Text.option Baseline.text t.baseline

def stepText (before : Option Phase) (t : Tracker) : String :=
  "step " ++ Text.padLeft 4 (toString t.steps) ++ " " ++ phaseText before ++ " -> "
    ++ phaseText t.phase ++ " started=" ++ Text.bool t.started ++ " finished="
    ++ Text.bool t.finished ++ " score=" ++ toString t.current.score ++ " money="
    ++ toString t.current.money ++ " (" ++ t.tier.name ++ ")"

/-- What is logged when a tracker comes from another by observing a report. -/
def observed (before after : Tracker) : Transcript :=
  (if before.enters after.phase then [Transcript.log .trace after.startedText] else [])
    ++ [Transcript.log .trace (after.stepText before.prevPhase)]

/-- What is logged when a report is observed in the course of a turn. -/
def turnNotes (t : Tracker) (report : Report) (read : Option Snapshot) : Transcript :=
  match t.tick.observe report read with
  | .ok seen => t.observed seen
  | .error _ => []

end Tracker

end BlindArena
