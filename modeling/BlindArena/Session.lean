import BlindArena.Engine
import BlindArena.Failure
import BlindArena.Transcript

/-!
# Sessions

One engine at work, and whether it is kept quiet. Starting it, stepping it and reading its snapshot
are silenced when quiet; making and configuring it never are.
-/

namespace BlindArena

structure Session (σ : Type) where
  engine : σ
  quiet : Bool

namespace Session
variable {σ : Type} (E : Engine σ)

def launchedText (seed : UInt64) (deck : Deck) (stake : Stake) : String :=
  "launched run seed=" ++ toString seed.toNat ++ " deck=" ++ deck.name ++ " stake=" ++ stake.name

/-- A fresh engine, configured and started. -/
def launch (seed : UInt64) (deck : Deck) (stake : Stake) (quiet : Bool) :
    Except Failure (Session σ) × Transcript :=
  let made := E.seeded seed
  match made.value with
  | .error reason => (.error (.unavailable seed deck stake reason), Transcript.written made.output)
  | .ok engine =>
    let configured := E.configure engine deck stake
    let started := E.start configured.value
    let opening := Transcript.written made.output ++ Transcript.written configured.output
      ++ Transcript.silenced quiet (Transcript.written started.output)
    match started.value with
    | (.error reason, _) => (.error (.start seed reason), opening)
    | (.ok (), engine) =>
      (.ok ⟨engine, quiet⟩, opening ++ [Transcript.log .debug (launchedText seed deck stake)])

def step (session : Session σ) (action : Option Index) :
    Reply (Session σ) (Except String Report) :=
  let spoken := E.step session.engine action
  ⟨spoken.value.1, { session with engine := spoken.value.2 },
    Transcript.silenced session.quiet (Transcript.written spoken.output)⟩

def probe (session : Session σ) : Reply (Session σ) (Except String Report) := session.step E none

def advance (session : Session σ) (action : Index) : Reply (Session σ) (Except String Report) :=
  session.step E (some action)

/-- Score and money, if the engine gives them; a refusal is only logged. -/
def snapshot (session : Session σ) : Option Snapshot × Transcript :=
  let spoken := E.snapshot session.engine
  let said := Transcript.silenced session.quiet (Transcript.written spoken.output)
  match spoken.value with
  | .ok snapshot => (some snapshot, said)
  | .error reason =>
    (none, said ++ [Transcript.log .trace ("snapshot unavailable: " ++ reason)])

end Session

end BlindArena
