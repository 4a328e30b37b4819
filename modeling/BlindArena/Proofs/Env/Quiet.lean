import BlindArena.Env.Fleet
import BlindArena.Proofs.Env.Runs
import BlindArena.Proofs.Terminal.Utterances
import BlindArena.Replay
import BlindArena.Sandbox.Rules

/-!
# Quiet settings

Two environments with the same settings, but for one being quiet, are called alike. All calls are
answered alike and leave the same seed and tracker, and the engine is called alike. What it writes
as it is made and configured is heard from both of them, and all the rest only from the one that is
not quiet.
-/

namespace BlindArena
variable {σ : Type} (E : Engine σ)

namespace Session

def hush (session : Session σ) (quiet : Bool) : Session σ := { session with quiet := quiet }

/-- The calls by which an engine is launched. -/
def launchUtterances (seed : UInt64) (deck : Deck) (stake : Stake) : List Utterance :=
  let made := E.seeded seed
  ⟨.seeded, made.output⟩ ::
    match made.value with
    | .error _ => []
    | .ok engine =>
      let configured := E.configure engine deck stake
      [⟨.configure, configured.output⟩, ⟨.start, (E.start configured.value).output⟩]

variable {E} {seed : UInt64} {deck : Deck} {stake : Stake} {quiet quiet' : Bool}

theorem launch_hush :
    (launch E seed deck stake quiet).1 =
      (launch E seed deck stake quiet').1.map (·.hush quiet) := by
  unfold launch
  dsimp only
  cases (E.seeded seed).value with
  | error reason => rfl
  | ok engine =>
    dsimp only
    split <;> rfl

theorem records_launch (level : Level) :
    (launch E seed deck stake quiet).2.records level =
      (launch E seed deck stake quiet').2.records level := by
  unfold launch
  dsimp only
  cases (E.seeded seed).value with
  | error reason => rfl
  | ok engine =>
    dsimp only
    split <;> simp only [Transcript.records_append, Transcript.records_silenced]

theorem quiet_of_launch {session : Session σ}
    (h : (launch E seed deck stake quiet).1 = .ok session) : session.quiet = quiet := by
  unfold launch at h
  dsimp only at h
  cases hmade : (E.seeded seed).value with
  | error reason =>
    rw [hmade] at h
    cases h
  | ok engine =>
    rw [hmade] at h
    dsimp only at h
    split at h
    · cases h
    · cases h
      rfl

theorem tells_launch :
    (launch E seed deck stake quiet).2.Tells quiet (launchUtterances E seed deck stake) := by
  unfold launch launchUtterances
  dsimp only
  cases (E.seeded seed).value with
  | error reason => exact .one .seeded _
  | ok engine =>
    have hseeded : (Transcript.written (E.seeded seed).output).Tells quiet
        [⟨.seeded, (E.seeded seed).output⟩] := .one .seeded _
    have hconfigured := hseeded.append (.one .configure (E.configure engine deck stake).output)
    have hopening := hconfigured.append
      (.one .start (E.start (E.configure engine deck stake).value).output)
    dsimp only
    split
    · exact hopening
    · exact hopening.append_logs rfl

variable {session : Session σ}

theorem tells_step (action : Option Index) :
    (session.step E action).transcript.Tells session.quiet
      [⟨.step, (E.step session.engine action).output⟩] := .one .step _

theorem tells_snapshot :
    (session.snapshot E).2.Tells session.quiet
      [⟨.snapshot, (E.snapshot session.engine).output⟩] := by
  unfold snapshot
  dsimp only
  split
  · exact .one .snapshot _
  · exact (Transcript.Tells.one .snapshot _).append_logs rfl

theorem step_hush (session : Session σ) (quiet : Bool) (action : Option Index) :
    let hushed := (session.hush quiet).step E action
    let stepped := session.step E action
    hushed.answer = stepped.answer ∧ hushed.state = stepped.state.hush quiet ∧
      ∀ level, hushed.transcript.records level = stepped.transcript.records level :=
  ⟨rfl, rfl, fun _ => (Transcript.records_silenced _ _ _).trans
    (Transcript.records_silenced _ _ _).symm⟩

theorem snapshot_hush :
    ((session.hush quiet).snapshot E).1 = (session.snapshot E).1 ∧
      ∀ level, ((session.hush quiet).snapshot E).2.records level =
        (session.snapshot E).2.records level := by
  unfold snapshot hush
  dsimp only
  split <;>
    simp only [Transcript.records_append, Transcript.records_silenced, implies_true, and_self]

end Session

namespace Env

def hush (env : Env σ) (quiet : Bool) : Env σ :=
  { env with
    config := { env.config with quiet := quiet }
    session := env.session.map (·.hush quiet) }

/-- The engine is kept as quiet as the settings say. -/
def Kept (env : Env σ) : Prop := ∀ session ∈ env.session, session.quiet = env.config.quiet

theorem kept_hush (env : Env σ) (quiet : Bool) : (env.hush quiet).Kept := by
  intro session hsession
  obtain ⟨kept, -, rfl⟩ := Option.map_eq_some_iff.1 (Option.mem_def.1 hsession)
  rfl

/-! ## One call -/

namespace Call

/-- What comes of a call: an overflow, or an answer and the environment after it. -/
def outcome (env : Env σ) (call : Call) : Except Overflow (Answer × Env σ) :=
  (call.perform E env).mapError (·.cause)

/-- What a call shows of itself: the answer, and the seed and the tracker after it. -/
def shown (env : Env σ) (call : Call) : Except Overflow (Answer × UInt64 × Tracker) :=
  (call.outcome E env).map fun (answer, next) => (answer, next.seed, next.tracker)

/-- All that a call writes, also if it is interrupted. -/
def transcript (env : Env σ) : Call → Transcript
  | reset seed => (env.reset E seed).transcript
  | step action => written (env.step E action)
  | close => []

/-- The calls to the engine that a call makes. -/
def utterances (env : Env σ) : Call → List Utterance
  | reset seed =>
    let seed := seed.getD env.seed
    Session.launchUtterances E seed env.config.deck env.config.stake ++
      match (launch E env.config seed).1 with
      | .error _ => []
      | .ok session => [⟨.step, (E.step session.engine none).output⟩]
  | step action =>
    match env.session with
    | none => []
    | some session =>
      let advanced := E.step session.engine
        (some (Resolution.resolve action env.tracker.legal).effective)
      ⟨.step, advanced.output⟩ ::
        match advanced.value.1 with
        | .error _ => []
        | .ok report =>
          if env.tracker.wantsRead report.phase then
            [⟨.snapshot, (E.snapshot advanced.value.2).output⟩]
          else []
  | close => []

end Call

variable {E} {env : Env σ} {quiet : Bool}

theorem launch_hush (config : Config) (quiet : Bool) (seed : UInt64) :
    let hushed := launch E { config with quiet := quiet } seed
    let launched := launch E config seed
    hushed.1 = launched.1.map (·.hush quiet) ∧
      ∀ level, hushed.2.records level = launched.2.records level :=
  ⟨Session.launch_hush, Session.records_launch⟩

/-- Two calls come to the same and log the same, but one of them leaves its environment hushed. -/
inductive Hushed {α : Type} (quiet : Bool) :
    Except Interruption (Reply (Env σ) α) → Except Interruption (Reply (Env σ) α) → Prop
  | error (cause : Overflow) {said said' : Transcript}
      (hsaid : ∀ level, said'.records level = said.records level) :
      Hushed quiet (.error ⟨cause, said'⟩) (.error ⟨cause, said⟩)
  | ok (answer : α) (state : Env σ) {said said' : Transcript}
      (hsaid : ∀ level, said'.records level = said.records level) :
      Hushed quiet (.ok ⟨answer, state.hush quiet, said'⟩) (.ok ⟨answer, state, said⟩)

theorem hushed_reset (env : Env σ) (quiet : Bool) (seed : Option UInt64) :
    Hushed quiet (.ok ((env.hush quiet).reset E seed)) (.ok (env.reset E seed)) := by
  obtain ⟨hlaunch, hrecords⟩ :=
    launch_hush (E := E) env.config quiet (seed.getD env.seed)
  unfold reset
  dsimp only [hush]
  generalize launch E { env.config with quiet := quiet } (seed.getD env.seed) = hushed at *
  generalize launch E env.config (seed.getD env.seed) = launched at *
  obtain ⟨made, said⟩ := launched
  obtain ⟨made', said'⟩ := hushed
  obtain rfl : made' = made.map (·.hush quiet) := hlaunch
  cases made with
  | error failure => exact .ok _ { env with seed := seed.getD env.seed } hrecords
  | ok session =>
    obtain ⟨hanswer, -, hprobe⟩ := Session.step_hush (E := E) session quiet none
    have hsaid (level : Level) (notes : Transcript) :
        (said' ++ ((session.hush quiet).probe E).transcript ++ notes).records level =
          (said ++ (session.probe E).transcript ++ notes).records level := by
      simp only [Transcript.records_append]
      exact congrArg (· ++ notes.records level)
        (congrArg₂ (· ++ ·) (hrecords level) (hprobe level))
    dsimp only [Except.map]
    have hprobed : ((session.hush quiet).probe E).answer = (session.probe E).answer := hanswer
    rw [hprobed]
    cases (session.probe E).answer with
    | error reason =>
      refine .ok _ { env with seed := seed.getD env.seed } fun level => ?_
      simpa using hsaid level []
    | ok report =>
      exact .ok _ ⟨env.config, seed.getD env.seed, some (session.probe E).state,
        Tracker.begin report⟩ fun level => hsaid level _

theorem hushed_conclude (env : Env σ) (quiet : Bool) (session : Session σ)
    (resolution : Resolution) (report : Report) {said said' : Transcript}
    (hsaid : ∀ level, said'.records level = said.records level) :
    Hushed quiet ((env.hush quiet).conclude E (session.hush quiet) resolution report said')
      (env.conclude E session resolution report said) := by
  obtain ⟨hfigures, hread⟩ :
      (read E (session.hush quiet) env.tracker report.phase).1 =
        (read E session env.tracker report.phase).1 ∧
      ∀ level, (read E (session.hush quiet) env.tracker report.phase).2.records level =
        (read E session env.tracker report.phase).2.records level := by
    unfold read
    split
    · exact Session.snapshot_hush
    · exact ⟨rfl, fun _ => rfl⟩
  have hnotes (level : Level) (notes : Transcript) :
      (said' ++ starvedNotes report ++
          (read E (session.hush quiet) env.tracker report.phase).2 ++ notes).records level =
        (said ++ starvedNotes report ++
          (read E session env.tracker report.phase).2 ++ notes).records level := by
    simp only [Transcript.records_append, hsaid, hread]
  unfold conclude
  dsimp only [hush]
  rw [hfigures]
  cases hturn : env.tracker.turn report (read E session env.tracker report.phase).1
      resolution.penalty env.config.budget with
  | error cause => exact .error cause fun level => hnotes level _
  | ok turn =>
    refine .ok _ { env with session := some session, tracker := turn.tracker } fun level => ?_
    simp only [Transcript.records_append] at hnotes ⊢
    rw [hnotes]

theorem hushed_step (env : Env σ) (quiet : Bool) (action : Index) :
    Hushed quiet ((env.hush quiet).step E action) (env.step E action) := by
  obtain ⟨config, seed, session, tracker⟩ := env
  unfold step
  cases session with
  | none => exact .ok _ ⟨config, seed, none, tracker⟩ fun _ => rfl
  | some session =>
    let resolution := Resolution.resolve action tracker.legal
    obtain ⟨hanswer, hstate, hadvance⟩ :=
      Session.step_hush (E := E) session quiet (some resolution.effective)
    have hsaid (level : Level) :
        (resolutionNotes resolution tracker.legal ++
            ((session.hush quiet).advance E resolution.effective).transcript).records level =
          (resolutionNotes resolution tracker.legal ++
            (session.advance E resolution.effective).transcript).records level := by
      rw [Transcript.records_append, Transcript.records_append]
      exact congrArg _ (hadvance level)
    have hadvanced : ((session.hush quiet).advance E resolution.effective).answer =
        (session.advance E resolution.effective).answer := hanswer
    dsimp only [hush, Option.map_some]
    rw [hadvanced]
    cases (session.advance E resolution.effective).answer with
    | error reason =>
      exact .ok _ ⟨config, seed, some (session.advance E resolution.effective).state, tracker⟩ hsaid
    | ok report =>
      exact hushed_conclude ⟨config, seed, some session, tracker⟩ quiet
        (session.advance E resolution.effective).state resolution report hsaid

/-! ## What is logged along the way -/

theorem actions_openingNotes (seed : UInt64) (report : Report) (t : Tracker) :
    (openingNotes seed report t).actions = [] := by
  unfold openingNotes
  split <;> rfl

theorem actions_resolutionNotes (resolution : Resolution) (legal : List Index) :
    (resolutionNotes resolution legal).actions = [] := by
  unfold resolutionNotes
  split <;> split <;> rfl

theorem actions_starvedNotes (report : Report) : (starvedNotes report).actions = [] := by
  unfold starvedNotes
  split <;> rfl

theorem actions_turnNotes (t : Tracker) (report : Report) (read : Option Snapshot) :
    (t.turnNotes report read).actions = [] := by
  unfold Tracker.turnNotes
  split
  · unfold Tracker.observed
    split <;> rfl
  · rfl

theorem actions_endingNotes (ending : Option Ending) (steps : Nat) :
    (endingNotes ending steps).actions = [] := by
  unfold endingNotes
  split <;> rfl

namespace Call
variable (env) (quiet) (call : Call)

theorem outcome_hush :
    call.outcome E (env.hush quiet) =
      (call.outcome E env).map fun (answer, next) => (answer, next.hush quiet) := by
  cases call with
  | reset seed =>
    have hhushed := hushed_reset (E := E) env quiet seed
    simp only [outcome, perform]
    generalize (env.hush quiet).reset E seed = hushed at *
    generalize env.reset E seed = opened at *
    cases hhushed
    rfl
  | step action =>
    have hhushed := hushed_step (E := E) env quiet action
    simp only [outcome, perform]
    generalize (env.hush quiet).step E action = hushed at *
    generalize env.step E action = stepped at *
    cases hhushed <;> rfl
  | close => rfl

theorem shown_hush : call.shown E (env.hush quiet) = call.shown E env := by
  rw [shown, shown, outcome_hush]
  cases call.outcome E env <;> rfl

theorem records_hush (level : Level) :
    (call.transcript E (env.hush quiet)).records level =
      (call.transcript E env).records level := by
  cases call with
  | reset seed =>
    have hhushed := hushed_reset (E := E) env quiet seed
    simp only [transcript]
    generalize (env.hush quiet).reset E seed = hushed at *
    generalize env.reset E seed = opened at *
    cases hhushed with
    | ok answer state hsaid => exact hsaid level
  | step action =>
    have hhushed := hushed_step (E := E) env quiet action
    simp only [transcript]
    generalize (env.hush quiet).step E action = hushed at *
    generalize env.step E action = stepped at *
    cases hhushed with
    | error cause hsaid => exact hsaid level
    | ok answer state hsaid => exact hsaid level
  | close => rfl

theorem utterances_hush : call.utterances E (env.hush quiet) = call.utterances E env := by
  cases call with
  | reset seed =>
    have hlaunch := (launch_hush (E := E) env.config quiet (seed.getD env.seed)).1
    simp only [utterances]
    have hhushed : (launch E (env.hush quiet).config (seed.getD (env.hush quiet).seed)).1 =
        (launch E env.config (seed.getD env.seed)).1.map (·.hush quiet) := hlaunch
    rw [hhushed]
    cases (launch E env.config (seed.getD env.seed)).1 <;> rfl
  | step action =>
    simp only [utterances, hush]
    cases env.session <;> rfl
  | close => rfl

variable {env}

theorem tells_reset (env : Env σ) (seed : Option UInt64) :
    ((reset seed).transcript E env).Tells env.config.quiet ((reset seed).utterances E env) := by
  have htells : (launch E env.config (seed.getD env.seed)).2.Tells env.config.quiet
      (Session.launchUtterances E (seed.getD env.seed) env.config.deck env.config.stake) :=
    Session.tells_launch
  simp only [transcript, utterances, Env.reset]
  cases hlaunch : launch E env.config (seed.getD env.seed) with
  | mk launched opening =>
    rw [hlaunch] at htells
    cases launched with
    | error failure =>
      rw [List.append_nil]
      exact htells
    | ok session =>
      have hquiet : session.quiet = env.config.quiet :=
        Session.quiet_of_launch (E := E) (congrArg Prod.fst hlaunch)
      have hprobe := session.tells_step (E := E) none
      rw [hquiet] at hprobe
      dsimp only
      split
      · exact htells.append hprobe
      · exact (htells.append hprobe).append_logs (actions_openingNotes _ _ _)

theorem tells_conclude (session : Session σ) (resolution : Resolution) (report : Report)
    {quiet : Bool} {said : Transcript} {told : List Utterance} (hquiet : session.quiet = quiet)
    (hsaid : said.Tells quiet told) :
    (written (env.conclude E session resolution report said)).Tells quiet
      (told ++ if env.tracker.wantsRead report.phase then
        [⟨.snapshot, (E.snapshot session.engine).output⟩] else []) := by
  have hread : (read E session env.tracker report.phase).2.Tells quiet
      (if env.tracker.wantsRead report.phase then
        [⟨.snapshot, (E.snapshot session.engine).output⟩] else []) := by
    unfold read
    split
    · rw [← hquiet]
      exact session.tells_snapshot
    · exact .nil
  have hturn := ((hsaid.append_logs (actions_starvedNotes report)).append hread).append_logs
    (actions_turnNotes env.tracker report (read E session env.tracker report.phase).1)
  unfold conclude
  dsimp only
  split
  · exact hturn
  · exact hturn.append_logs (actions_endingNotes _ _)

theorem tells_step (hkept : env.Kept) (action : Index) :
    ((step action).transcript E env).Tells env.config.quiet ((step action).utterances E env) := by
  simp only [transcript, utterances, Env.step]
  cases hsession : env.session with
  | none => exact .nil
  | some session =>
    have hquiet : session.quiet = env.config.quiet := hkept session hsession
    dsimp only
    generalize Resolution.resolve action env.tracker.legal = resolution
    have hadvance := session.tells_step (E := E) (some resolution.effective)
    rw [hquiet] at hadvance
    have hsaid := Transcript.Tells.of_logs_append
      (actions_resolutionNotes resolution env.tracker.legal) hadvance
    have hanswer : (session.advance E resolution.effective).answer =
        (E.step session.engine (some resolution.effective)).value.1 := rfl
    rw [hanswer]
    cases (E.step session.engine (some resolution.effective)).value.1 with
    | error reason => exact hsaid
    | ok report =>
      exact tells_conclude (session.advance E resolution.effective).state resolution report hquiet
        hsaid

theorem tells (hkept : env.Kept) (call : Call) :
    (call.transcript E env).Tells env.config.quiet (call.utterances E env) := by
  cases call with
  | reset seed => exact tells_reset env seed
  | step action => exact tells_step hkept action
  | close => exact .nil

end Call

/-! ## Sittings -/

variable (E) in
/-- The calls that are made in a row, each with the environment that it is made to. An interrupted
call is the last one. -/
def made (env : Env σ) : List Call → List (Env σ × Call)
  | [] => []
  | call :: calls =>
    (env, call) ::
      match call.outcome E env with
      | .error _ => []
      | .ok (_, next) => next.made calls

theorem made_hush (env : Env σ) (quiet : Bool) (calls : List Call) :
    (env.hush quiet).made E calls =
      (env.made E calls).map fun (env, call) => (env.hush quiet, call) := by
  induction calls generalizing env with
  | nil => rfl
  | cons call calls ih =>
    simp only [made, Call.outcome_hush, List.map_cons]
    cases call.outcome E env with
    | error cause => rfl
    | ok performed => simp only [Except.map, ih]

variable (E : Engine σ) (config : Config) (word : UInt64) (calls : List Call)

/-- An environment is made, if it can be, and called. -/
def sitting : List (Env σ × Call) :=
  match (make E config word).1 with
  | .error _ => []
  | .ok env => env.made E calls

/-- What is seen of a sitting but for the output: the seed or why there is no environment, and what
each call shows. -/
def seen : Except Failure UInt64 × List (Except Overflow (Answer × UInt64 × Tracker)) :=
  ((make E config word).1.map (·.seed), (sitting E config word calls).map fun (env, call) =>
    call.shown E env)

def record : Transcript :=
  (make E config word).2 ++ (sitting E config word calls).flatMap fun (env, call) =>
    call.transcript E env

/-- The calls to the engine that are made in a sitting. -/
def uttered : List Utterance :=
  Session.launchUtterances E (config.seedOr word) config.deck config.stake ++
    (sitting E config word calls).flatMap fun (env, call) => call.utterances E env

variable {E}

theorem make_hush (quiet : Bool) :
    (make E { config with quiet := quiet } word).1 =
      (make E config word).1.map (·.hush quiet) := by
  have hlaunch := (launch_hush (E := E) config quiet (config.seedOr word)).1
  show Except.map _ (launch E { config with quiet := quiet } (config.seedOr word)).1 =
    Except.map _ (Except.map _ (launch E config (config.seedOr word)).1)
  rw [hlaunch]
  cases (launch E config (config.seedOr word)).1 <;> rfl

theorem sitting_hush (quiet : Bool) :
    sitting E { config with quiet := quiet } word calls =
      (sitting E config word calls).map fun (env, call) => (env.hush quiet, call) := by
  rw [sitting, sitting, make_hush]
  cases (make E config word).1 with
  | error failure => rfl
  | ok env => exact made_hush env quiet calls

theorem seen_hush (quiet : Bool) :
    seen E { config with quiet := quiet } word calls = seen E config word calls := by
  rw [seen, seen, make_hush, sitting_hush, List.map_map]
  refine Prod.ext ?_ (List.map_congr_left fun p _ => p.2.shown_hush p.1 quiet)
  cases (make E config word).1 <;> rfl

theorem uttered_hush (quiet : Bool) :
    uttered E { config with quiet := quiet } word calls = uttered E config word calls := by
  rw [uttered, uttered, sitting_hush, List.flatMap_map]
  exact congrArg _ (List.flatMap_congr fun p _ => p.2.utterances_hush p.1 quiet)

theorem records_hush (quiet : Bool) (level : Level) :
    (record E { config with quiet := quiet } word calls).records level =
      (record E config word calls).records level := by
  have hlaunch := (launch_hush (E := E) config quiet (config.seedOr word)).2 level
  rw [record, record, Transcript.records_append, Transcript.records_append,
    Transcript.records_flatMap, Transcript.records_flatMap, sitting_hush, List.flatMap_map]
  refine congrArg₂ (· ++ ·) hlaunch (List.flatMap_congr fun p _ => ?_)
  exact p.2.records_hush p.1 quiet level

theorem tells_record :
    (record E config word calls).Tells config.quiet (uttered E config word calls) := by
  refine Transcript.Tells.append Session.tells_launch (.flatMap fun p hp => ?_)
  -- the settings are as quiet as they say, so hushing a sitting changes nothing
  have hself : sitting E config word calls =
      (sitting E config word calls).map fun (env, call) => (env.hush config.quiet, call) :=
    sitting_hush config word calls config.quiet
  rw [hself] at hp
  obtain ⟨⟨env, call⟩, -, rfl⟩ := List.mem_map.1 hp
  exact call.tells (kept_hush env config.quiet)

/-! ## What is heard of a sitting -/

/-- An engine that writes nothing as it is made and configured writes only under guards. -/
theorem output_of_unguarded (hseeded : ∀ seed, (E.seeded seed).output = [])
    (hconfigure : ∀ s deck stake, (E.configure s deck stake).output = []) :
    ∀ u ∈ uttered E config word calls, u.speech.guarded = false → u.output = [] := by
  have hlaunch (seed : UInt64) (deck : Deck) (stake : Stake) :
      ∀ u ∈ Session.launchUtterances E seed deck stake, u.speech.guarded = false →
        u.output = [] := by
    simp only [Session.launchUtterances]
    cases (E.seeded seed).value with
    | error reason => simp [hseeded]
    | ok engine => simp [hseeded, hconfigure, Speech.guarded]
  have hcall (env : Env σ) (call : Call) :
      ∀ u ∈ call.utterances E env, u.speech.guarded = false → u.output = [] := by
    cases call with
    | reset seed =>
      intro u hu
      rcases List.mem_append.1 hu with hu | hu
      · exact hlaunch _ _ _ u hu
      · split at hu
        · cases hu
        · rw [List.mem_singleton.1 hu]
          simp [Speech.guarded]
    | step action =>
      intro u hu
      simp only [Call.utterances] at hu
      split at hu
      · cases hu
      · rcases List.mem_cons.1 hu with rfl | hu
        · simp [Speech.guarded]
        · split at hu
          · cases hu
          · split at hu
            · rw [List.mem_singleton.1 hu]
              simp [Speech.guarded]
            · cases hu
    | close => simp [Call.utterances]
  intro u hu
  rcases List.mem_append.1 hu with hu | hu
  · exact hlaunch _ _ _ u hu
  · obtain ⟨⟨env, call⟩, -, hu⟩ := List.mem_flatMap.1 hu
    exact hcall env call u hu

/-- Quiet settings change what is heard of an environment and nothing else: its calls are answered
alike and leave the same, it logs the same, and it makes the same calls to the engine. If it is
quiet all that is heard on either channel is what the engine writes as it is made and configured,
and otherwise everything, in the order of the calls. No guard outlives a call. -/
theorem quiet_only_silences (E : Engine σ) (config : Config) (word : UInt64) (calls : List Call)
    {console : Console} (hrest : console.AtRest) :
    let quiet : Config := { config with quiet := true }
    let said := uttered E config.loud word calls
    let after (settings : Config) := console.run (record E settings word calls).actions
    (seen E quiet word calls = seen E config.loud word calls ∧
      (∀ level, (record E quiet word calls).records level =
        (record E config.loud word calls).records level) ∧
      uttered E quiet word calls = said) ∧
    ((after quiet).AtRest ∧ ∀ channel, (after quiet).heard channel = console.heard channel ++
      Output.shown channel ((said.filter (!·.speech.guarded)).flatMap (·.output))) ∧
    ((after config.loud).AtRest ∧ ∀ channel, (after config.loud).heard channel =
      console.heard channel ++ Output.shown channel (said.flatMap (·.output))) ∧
    ∀ channel, (console.run (record Sandbox.engine quiet word calls).actions).heard channel =
      console.heard channel := by
  intro quiet said after
  have huttered : uttered E quiet word calls = said := uttered_hush config.loud word calls true
  have hquiet := Console.run_tells hrest (tells_record (E := E) quiet word calls)
  have hloud := Console.run_tells hrest (tells_record (E := E) config.loud word calls)
  have hsandbox := Console.run_tells hrest (tells_record (E := Sandbox.engine) quiet word calls)
  refine ⟨⟨seen_hush config.loud word calls true, records_hush config.loud word calls true,
    huttered⟩, ?_, ?_, fun channel => ?_⟩
  · rw [huttered] at hquiet
    rw [← Utterance.audible_quiet]
    exact hquiet
  · rw [← Utterance.audible_loud]
    exact hloud
  · have hsilent : Utterance.audible true (uttered Sandbox.engine quiet word calls) = [] := by
      rw [Utterance.audible_quiet, List.flatMap_eq_nil_iff]
      intro u hu
      rw [List.mem_filter, Bool.not_eq_true'] at hu
      exact output_of_unguarded quiet word calls (fun _ => rfl) (fun _ _ _ => rfl) u hu.1 hu.2
    exact (hsandbox.2 channel).trans
      ((congrArg _ (congrArg _ hsilent)).trans String.append_empty)

/-- The engine announces every call, fails once and refuses a seed. -/
def outspoken : Script where
  frames := [{ report := some (.input .blindSelect [⟨1, "select"⟩]) },
    { failure := some "jammed" },
    { report := some (.input .playing [⟨1, "play"⟩]), figures := some ⟨0, 4⟩ }]
  refused := [9]
  announced := true

/-- It also begins a line as it is made, and writes of every step to the error channel. -/
def murmuring : Engine Nat :=
  { outspoken.engine with
    seeded := fun seed => ⟨(outspoken.engine.seeded seed).value, [⟨.out, "engine, "⟩]⟩
    step := fun cursor action =>
      let stepped := outspoken.engine.step cursor action
      ⟨stepped.value, stepped.output ++ [⟨.err, "."⟩]⟩ }

/-- What is heard as it is reset, jammed, stepped on, reset to a seed it refuses, and closed. -/
theorem quiet_only_silences_of_murmuring :
    let calls : List Call := [.reset none, .step 1, .step 7, .reset (some 9), .close, .step 2]
    let after (settings : Config) :=
      ({} : Console).run (record murmuring settings 4 calls).actions
    ({} : Console).AtRest ∧
    (after {}).AtRest ∧ (after {}).heard .err = "" ∧ (after {}).heard .out =
      "engine, configure Red White\nengine, configure Red White\nengine, " ∧
    (after (Config.loud {})).AtRest ∧ (after (Config.loud {})).heard .err = "..." ∧
    (after (Config.loud {})).heard .out =
      "engine, configure Red White\nstart\nengine, configure Red White\nstart\nstep None\n" ++
        "step Some(1)\nstep Some(1)\nsnapshot\nengine, " := by
  intro calls after
  have hattached : ({} : Console).table.Attached := fun channel => by cases channel <;> rfl
  have hrest : ({} : Console).AtRest := ⟨rfl, rfl, rfl, hattached⟩
  obtain ⟨-, ⟨hquiet, hhushed⟩, ⟨hloud, hheard⟩, -⟩ :=
    quiet_only_silences murmuring {} 4 calls hrest
  exact ⟨hrest, hquiet, (hhushed .err).trans rfl, (hhushed .out).trans rfl, hloud,
    (hheard .err).trans rfl, (hheard .out).trans rfl⟩

end Env
end BlindArena
