import BlindArena.Decimal.Shortest
import BlindArena.Env.Config
import BlindArena.Env.Transition
import BlindArena.Session
import BlindArena.Turn

/-!
# Environments

One episodic environment over one engine session. The session is launched when the environment is
made, so an engine that cannot work is found out at once; a reset replaces it by a fresh one only
when that has shown its first decision point. A step that fails changes nothing but the engine.
-/

namespace BlindArena

structure Env (σ : Type) where
  config : Config
  seed : UInt64
  session : Option (Session σ)
  tracker : Tracker

namespace Env
variable {σ : Type} (E : Engine σ)

def launch (config : Config) (seed : UInt64) : Except Failure (Session σ) × Transcript :=
  Session.launch E seed config.deck config.stake config.quiet

/-- An environment with its engine started. The word draws the seed if none is set. -/
def make (config : Config) (word : UInt64) : Except Failure (Env σ) × Transcript :=
  let seed := config.seedOr word
  let launched := launch E config seed
  (launched.1.map fun session => ⟨config, seed, some session, {}⟩, launched.2)

def isClosed (env : Env σ) : Bool := env.session.isNone

/-- The engine and the bookkeeping are dropped; a reset brings both back. -/
def close (env : Env σ) : Env σ := { env with session := none, tracker := {} }

/-! ## Log texts -/

def indexList (indices : List Index) : String := Text.list toString indices

def openingNotes (seed : UInt64) (report : Report) (t : Tracker) : Transcript :=
  (if report.starved then
    [Transcript.log .warn
      ("run opened at " ++ Tracker.phaseText report.phase ++ " with no legal actions")]
  else [])
  ++ [Transcript.log .debug
    ("reset seed=" ++ toString seed.toNat ++ " phase=" ++ Tracker.phaseText report.phase
      ++ " legal=" ++ indexList t.legal)]

def penaltyText (penalty : Float32) : String :=
  (Layout.positional.numeral? penalty).elim "" fun n => String.ofList n.toList

def resolutionNotes (resolution : Resolution) (legal : List Index) : Transcript :=
  (if legal.isEmpty then
    [Transcript.log .warn
      ("no legal actions cached, sending 0 in place of " ++ toString resolution.requested)]
  else [])
  ++ (if resolution.remapped then
    [Transcript.log .debug
      ("remapped action " ++ toString resolution.requested ++ " -> "
        ++ toString resolution.effective ++ " (" ++ penaltyText resolution.penalty ++ ")")]
  else [])

def starvedNotes (report : Report) : Transcript :=
  if report.starved then
    [Transcript.log .warn
      ("engine needs input at " ++ Tracker.phaseText report.phase ++ " but offered no actions")]
  else []

def endingNotes (ending : Option Ending) (steps : Nat) : Transcript :=
  match ending with
  | some ending =>
    [Transcript.log .debug
      ("episode ended (" ++ ending.name ++ ") after " ++ toString steps ++ " steps")]
  | none => []

/-! ## Calls -/

/-- A fresh run and its first view. A seed that is given replaces the stored one, also when the
reset fails. -/
def reset (env : Env σ) (seed : Option UInt64) : Reply (Env σ) (Except Failure View) :=
  let env := { env with seed := seed.getD env.seed }
  match launch E env.config env.seed with
  | (.error failure, opening) => ⟨.error failure, env, opening⟩
  | (.ok session, opening) =>
    let probed := session.probe E
    match probed.answer with
    | .error reason => ⟨.error (.probe reason), env, opening ++ probed.transcript⟩
    | .ok report =>
      let tracker := Tracker.begin report
      ⟨.ok (View.opening report tracker),
        { env with session := some probed.state, tracker := tracker },
        opening ++ probed.transcript ++ openingNotes env.seed report tracker⟩

/-- The figures the tracker wants for a report. -/
def read (session : Session σ) (t : Tracker) (phase : Option Phase) :
    Option Snapshot × Transcript :=
  if t.wantsRead phase then session.snapshot E else (none, [])

/-- The part of a step that comes after the engine's report. -/
def conclude (env : Env σ) (session : Session σ) (resolution : Resolution) (report : Report)
    (said : Transcript) : Except Interruption (Reply (Env σ) (Except Failure Transition)) :=
  let figures := read E session env.tracker report.phase
  let said := said ++ starvedNotes report ++ figures.2 ++ env.tracker.turnNotes report figures.1
  match env.tracker.turn report figures.1 resolution.penalty env.config.budget with
  | .error overflow => .error ⟨overflow, said⟩
  | .ok turn =>
    .ok
      { answer := .ok
          { view := View.afterStep report turn.tracker resolution
            reward := turn.shaped.total
            ending := turn.ending }
        state := { env with session := some session, tracker := turn.tracker }
        transcript := said ++ endingNotes turn.ending turn.tracker.steps }

/-- One action. An illegal one is replaced and penalised, never refused. -/
def step (env : Env σ) (action : Index) :
    Except Interruption (Reply (Env σ) (Except Failure Transition)) :=
  match env.session with
  | none => .ok ⟨.error .closed, env, []⟩
  | some session =>
    let resolution := Resolution.resolve action env.tracker.legal
    let advanced := session.advance E resolution.effective
    let said := resolutionNotes resolution env.tracker.legal ++ advanced.transcript
    match advanced.answer with
    | .error reason =>
      .ok ⟨.error (.step resolution.effective reason),
        { env with session := some advanced.state }, said⟩
    | .ok report => conclude E env advanced.state resolution report said

end Env

end BlindArena
