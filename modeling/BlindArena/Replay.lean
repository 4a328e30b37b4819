import BlindArena.Engine

/-!
# Replays

An engine that plays a script back: a list of frames, each with the report to give there, the
figures to show and the reason to fail if any. A choice moves to the next frame, whatever it is and
also when the frame then fails. A script may refuse seeds, fail to start, and announce its calls.
-/

namespace BlindArena

structure Frame where
  report : Option Report := none
  figures : Option Snapshot := none
  failure : Option String := none

structure Script where
  frames : List Frame
  refused : List UInt64 := []
  startFailure : Option String := none
  announced : Bool := false

namespace Script

def announce (script : Script) (text : String) : List Output :=
  if script.announced then [.line text] else []

def stepText : Option Index → String
  | none => "step None"
  | some action => "step Some(" ++ toString action ++ ")"

/-- What the frame at the cursor reports. -/
def report (script : Script) (cursor : Nat) : Except String Report :=
  match script.frames[cursor]? with
  | none => .error ("script exhausted at frame " ++ toString cursor)
  | some frame =>
    match frame.failure, frame.report with
    | some reason, _ => .error reason
    | none, some report => .ok report
    | none, none => .error ("no result at frame " ++ toString cursor)

def figures (script : Script) (cursor : Nat) : Except String Snapshot :=
  match script.frames[cursor]?.bind (·.figures) with
  | some snapshot => .ok snapshot
  | none => .error ("no snapshot at frame " ++ toString cursor)

/-- A script without figures to show. The state is the cursor. -/
def mute (script : Script) : Engine Nat where
  seeded seed :=
    ⟨if seed ∈ script.refused then .error ("no engine for seed " ++ toString seed.toNat)
      else .ok 0, []⟩
  configure cursor deck stake :=
    ⟨cursor, script.announce ("configure " ++ deck.name ++ " " ++ stake.name)⟩
  start _ :=
    ⟨(match script.startFailure with
      | some reason => .error reason
      | none => .ok (), 0), script.announce "start"⟩
  step cursor action :=
    let cursor := if action.isSome then cursor + 1 else cursor
    ⟨(script.report cursor, cursor), script.announce (stepText action)⟩

def engine (script : Script) : Engine Nat :=
  { script.mute with
    snapshot := fun cursor => ⟨script.figures cursor, script.announce "snapshot"⟩ }

end Script

end BlindArena
