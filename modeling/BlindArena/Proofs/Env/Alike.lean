import BlindArena.Proofs.Env.Runs
import Mathlib.Data.Option.Defs

/-!
# Environments over engines that act alike

Two engines act alike through a relation of their states when every call but the reading of figures
gives both the same answer and keeps the relation. Sessions on such engines are launched, probed and
advanced alike, and environments over them are made, reset and closed alike. What becomes of a step
depends also on the figures read: where these are the same too, steps and whole runs are alike.
-/

namespace BlindArena
variable {σ τ : Type}

/-- The same failure, or related values. -/
inductive Paired {ε α β : Type} (R : α → β → Prop) : Except ε α → Except ε β → Prop
  | error (failure : ε) : Paired R (.error failure) (.error failure)
  | ok {a : α} {b : β} (h : R a b) : Paired R (.ok a) (.ok b)

structure Engine.Alike (R : σ → τ → Prop) (E : Engine σ) (F : Engine τ) : Prop where
  seeded (seed : UInt64) : Paired R (E.seeded seed).value (F.seeded seed).value
  configure {s : σ} {t : τ} (h : R s t) (deck : Deck) (stake : Stake) :
    R (E.configure s deck stake).value (F.configure t deck stake).value
  start {s : σ} {t : τ} (h : R s t) :
    (E.start s).value.1 = (F.start t).value.1 ∧ R (E.start s).value.2 (F.start t).value.2
  step {s : σ} {t : τ} (h : R s t) (action : Option Index) :
    (E.step s action).value.1 = (F.step t action).value.1 ∧
      R (E.step s action).value.2 (F.step t action).value.2

structure Session.Alike (R : σ → τ → Prop) (s : Session σ) (t : Session τ) : Prop where
  engine : R s.engine t.engine
  quiet : s.quiet = t.quiet

/-- The trackers are in a relation of their own. -/
structure Env.Alike (R : σ → τ → Prop) (T : Tracker → Tracker → Prop) (env : Env σ) (env' : Env τ) :
    Prop where
  config : env.config = env'.config
  seed : env.seed = env'.seed
  session : Option.Rel (Session.Alike R) env.session env'.session
  tracker : T env.tracker env'.tracker

variable {R : σ → τ → Prop} {E : Engine σ} {F : Engine τ}

namespace Session.Alike

theorem launch (h : E.Alike R F) (seed : UInt64) (deck : Deck) (stake : Stake) (quiet : Bool) :
    Paired (Session.Alike R) (Session.launch E seed deck stake quiet).1
      (Session.launch F seed deck stake quiet).1 := by
  have hseeded := h.seeded seed
  unfold Session.launch
  dsimp only
  generalize (E.seeded seed).value = made at hseeded ⊢
  generalize (F.seeded seed).value = made' at hseeded ⊢
  cases hseeded with
  | error reason => exact .error _
  | @ok s t hst =>
    have hstart := h.start (h.configure hst deck stake)
    dsimp only
    generalize (E.start (E.configure s deck stake).value).value = started at hstart ⊢
    generalize (F.start (F.configure t deck stake).value).value = started' at hstart ⊢
    obtain ⟨outcome, engine⟩ := started
    obtain ⟨outcome', engine'⟩ := started'
    obtain ⟨rfl, hengine⟩ := hstart
    cases outcome with
    | error reason => exact .error _
    | ok => exact .ok ⟨hengine, rfl⟩

theorem step (h : E.Alike R F) {s : Session σ} {t : Session τ} (hst : Session.Alike R s t)
    (action : Option Index) :
    (s.step E action).answer = (t.step F action).answer ∧
      Session.Alike R (s.step E action).state (t.step F action).state := by
  obtain ⟨hanswer, hengine⟩ := h.step hst.engine action
  exact ⟨hanswer, hengine, hst.quiet⟩

end Session.Alike

namespace Env.Alike
variable {T : Tracker → Tracker → Prop} {env : Env σ} {env' : Env τ}

theorem make (h : E.Alike R F) (hT : ∀ t, T t t) (config : Config) (word : UInt64) :
    Paired (Env.Alike R T) (Env.make E config word).1 (Env.make F config word).1 := by
  have hlaunch :=
    Session.Alike.launch h (config.seedOr word) config.deck config.stake config.quiet
  unfold Env.make Env.launch
  dsimp only
  generalize (Session.launch E (config.seedOr word) config.deck config.stake config.quiet).1 =
    launched at hlaunch ⊢
  generalize (Session.launch F (config.seedOr word) config.deck config.stake config.quiet).1 =
    launched' at hlaunch ⊢
  cases hlaunch with
  | error failure => exact .error _
  | ok hsession => exact .ok ⟨rfl, rfl, .some hsession, hT _⟩

theorem reset (h : E.Alike R F) (hT : ∀ t, T t t) (henv : env.Alike R T env')
    (seed : Option UInt64) :
    (env.reset E seed).answer = (env'.reset F seed).answer ∧
      (env.reset E seed).state.Alike R T (env'.reset F seed).state := by
  obtain ⟨config, stored, session, tracker⟩ := env
  obtain ⟨config', stored', session', tracker'⟩ := env'
  obtain ⟨rfl, rfl, hsession, htracker⟩ := henv
  have hlaunch := Session.Alike.launch h (seed.getD stored) config.deck config.stake config.quiet
  unfold Env.reset Env.launch
  dsimp only
  generalize Session.launch E (seed.getD stored) config.deck config.stake config.quiet =
    launched at hlaunch ⊢
  generalize Session.launch F (seed.getD stored) config.deck config.stake config.quiet =
    launched' at hlaunch ⊢
  obtain ⟨opened, opening⟩ := launched
  obtain ⟨opened', opening'⟩ := launched'
  cases hlaunch with
  | error failure => exact ⟨rfl, rfl, rfl, hsession, htracker⟩
  | @ok s t hst =>
    obtain ⟨hanswer, hprobed⟩ := Session.Alike.step h hst none
    simp only [Session.probe, ← hanswer]
    cases (s.step E none).answer with
    | error reason => exact ⟨rfl, rfl, rfl, hsession, htracker⟩
    | ok report => exact ⟨rfl, rfl, rfl, .some hprobed, hT _⟩

theorem close (hT : ∀ t, T t t) (henv : env.Alike R T env') : env.close.Alike R T env'.close where
  config := henv.config
  seed := henv.seed
  session := .none
  tracker := hT _

/-! ## The same figures -/

variable (hfigures : ∀ {s : σ} {t : τ}, R s t → (E.snapshot s).value = (F.snapshot t).value)
include hfigures

theorem read {s : Session σ} {t : Session τ} (hst : Session.Alike R s t) (tracker : Tracker)
    (phase : Option Phase) :
    (Env.read E s tracker phase).1 = (Env.read F t tracker phase).1 := by
  unfold Env.read
  split
  · simp only [Session.snapshot, hfigures hst.engine]
    cases (F.snapshot t.engine).value <;> rfl
  · rfl

theorem step (h : E.Alike R F) (henv : env.Alike R Eq env') {action : Index}
    {reply : Reply (Env σ) (Except Failure Transition)} (hstep : env.step E action = .ok reply) :
    ∃ reply', env'.step F action = .ok reply' ∧ reply'.answer = reply.answer ∧
      reply.state.Alike R Eq reply'.state := by
  obtain ⟨config, seed, session, tracker⟩ := env
  obtain ⟨config', seed', session', tracker'⟩ := env'
  obtain ⟨rfl, rfl, hsession, rfl⟩ := henv
  unfold Env.step at hstep ⊢
  cases hsession with
  | none =>
    cases hstep
    exact ⟨_, rfl, rfl, rfl, rfl, .none, rfl⟩
  | @some s t hst =>
    obtain ⟨hanswer, hadvanced⟩ :=
      Session.Alike.step h hst (some (Resolution.resolve action tracker.legal).effective)
    simp only [Session.advance, ← hanswer] at hstep ⊢
    split at hstep
    · cases hstep
      exact ⟨_, rfl, rfl, rfl, rfl, .some hadvanced, rfl⟩
    · simp only [conclude, read hfigures hadvanced] at hstep ⊢
      split at hstep
      · cases hstep
      · cases hstep
        exact ⟨_, rfl, rfl, rfl, rfl, .some hadvanced, rfl⟩

theorem run (h : E.Alike R F) (henv : env.Alike R Eq env') {calls : List Call}
    {answers : List Answer} {last : Env σ} (hrun : env.run E calls = .ok (answers, last)) :
    ∃ last', env'.run F calls = .ok (answers, last') ∧ last.Alike R Eq last' := by
  induction calls generalizing env env' answers with
  | nil =>
    cases hrun
    exact ⟨env', rfl, henv⟩
  | cons call calls ih =>
    obtain ⟨answer, next, later, hperform, hlater, rfl⟩ := run_cons_ok_elim hrun
    obtain ⟨next', hperform', hnext⟩ : ∃ next', Call.perform F env' call = .ok (answer, next') ∧
        next.Alike R Eq next' := by
      cases call with
      | reset seed =>
        cases hperform
        obtain ⟨hanswer, hstate⟩ := henv.reset h (fun _ => rfl) seed
        exact ⟨_, by rw [Call.perform, hanswer], hstate⟩
      | step action =>
        obtain ⟨reply, hstep, rfl, rfl⟩ := perform_step_ok_elim hperform
        obtain ⟨reply', hstep', hanswer, hstate⟩ := henv.step hfigures h hstep
        exact ⟨reply'.state, by simp [Call.perform, hstep', Except.map, hanswer], hstate⟩
      | close =>
        cases hperform
        exact ⟨_, rfl, henv.close fun _ => rfl⟩
    obtain ⟨last', hrun', hlast⟩ := ih hnext hlater
    exact ⟨last', by simp [Env.run, hperform', hrun', Except.map], hlast⟩

end Env.Alike
end BlindArena
