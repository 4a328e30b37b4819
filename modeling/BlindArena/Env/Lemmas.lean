import BlindArena.Env.Basic
import BlindArena.Tracker.Lemmas

/-!
# What the calls of an environment leave alone

An environment starts from the seed that is set, and only a reset changes it. No call changes the
settings. A successful step counts one step, and one that does not end the episode leaves the count
below the budget.
-/

namespace BlindArena
namespace Env
variable {σ : Type} {E : Engine σ}

/-- An environment is made of a session that is launched and an empty tracker. -/
theorem make_eq_ok_iff {config : Config} {word : UInt64} {env : Env σ} :
    (make E config word).1 = .ok env ↔
      ∃ session, (launch E config (config.seedOr word)).1 = .ok session ∧
        env = ⟨config, config.seedOr word, some session, {}⟩ := by
  cases hlaunch : (launch E config (config.seedOr word)).1 with
  | error failure => simp [make, hlaunch, Except.map]
  | ok session => simp [make, hlaunch, Except.map, eq_comm]

theorem config_of_make {config : Config} {word : UInt64} {env : Env σ}
    (h : (make E config word).1 = .ok env) : env.config = config := by
  obtain ⟨session, -, rfl⟩ := make_eq_ok_iff.1 h
  rfl

theorem seed_of_make {config : Config} {seed word : UInt64} {env : Env σ}
    (h : (make E (config.seeded seed) word).1 = .ok env) : env.seed = seed := by
  obtain ⟨session, -, rfl⟩ := make_eq_ok_iff.1 h
  rfl

theorem config_reset (env : Env σ) (seed : Option UInt64) :
    (env.reset E seed).state.config = env.config := by
  unfold reset
  dsimp only
  split
  · rfl
  · split <;> rfl

@[simp] theorem seed_reset (env : Env σ) (seed : UInt64) :
    (env.reset E (some seed)).state.seed = seed := by
  unfold reset
  dsimp only
  split
  · rfl
  · split <;> rfl

/-- Nothing but the settings and the seed decides what a reset answers. -/
theorem answer_reset {env other : Env σ} (h : other.config = env.config) (seed : UInt64) :
    (other.reset E (some seed)).answer = (env.reset E (some seed)).answer := by
  unfold reset
  simp only [h, Option.getD_some]
  split
  · rfl
  · split <;> rfl

theorem reset_none (env : Env σ) : env.reset E none = env.reset E (some env.seed) := rfl

/-- A step in its parts. -/
theorem step_ok_elim {env : Env σ} {action : Index}
    {reply : Reply (Env σ) (Except Failure Transition)} {transition : Transition}
    (h : env.step E action = .ok reply) (ha : reply.answer = .ok transition) :
    ∃ session report turn,
      env.session = some session ∧
      let resolution := Resolution.resolve action env.tracker.legal
      let advanced := session.advance E resolution.effective
      advanced.answer = .ok report ∧
      env.tracker.turn report (read E advanced.state env.tracker report.phase).1
        resolution.penalty env.config.budget = .ok turn ∧
      transition = { view := View.afterStep report turn.tracker resolution
                     reward := turn.shaped.total
                     ending := turn.ending } ∧
      reply.state = { env with session := some advanced.state, tracker := turn.tracker } := by
  unfold step at h
  split at h
  · cases h
    cases ha
  · rename_i session hsession
    dsimp only at h
    split at h
    · cases h
      cases ha
    · rename_i report hreport
      simp only [conclude] at h
      cases hturn : env.tracker.turn report
          (read E (session.advance E (Resolution.resolve action env.tracker.legal).effective).state
            env.tracker report.phase).1
          (Resolution.resolve action env.tracker.legal).penalty env.config.budget with
      | error o => simp [hturn] at h
      | ok turn =>
        simp only [hturn, Except.ok.injEq] at h
        subst h
        cases ha
        exact ⟨session, report, turn, hsession, hreport, hturn, rfl, rfl⟩

/-- Whatever comes of a step that is not interrupted: the environment is closed, the engine fails
and only it has changed, or the step succeeds. -/
theorem step_elim {env : Env σ} {action : Index}
    {reply : Reply (Env σ) (Except Failure Transition)} (h : env.step E action = .ok reply) :
    env.session = none ∧ reply.answer = .error .closed ∧ reply.state = env ∨
    (∃ session reason, env.session = some session ∧
      let index := (Resolution.resolve action env.tracker.legal).effective
      let advanced := session.advance E index
      advanced.answer = .error reason ∧ reply.answer = .error (.step index reason) ∧
      reply.state = { env with session := some advanced.state }) ∨
    ∃ transition, reply.answer = .ok transition := by
  unfold step at h
  split at h
  · rename_i hclosed
    cases h
    exact Or.inl ⟨hclosed, rfl, rfl⟩
  · rename_i session hsession
    dsimp only at h
    split at h
    · rename_i reason hreason
      cases h
      exact Or.inr (Or.inl ⟨session, reason, hsession, hreason, rfl, rfl⟩)
    · simp only [conclude] at h
      split at h
      · cases h
      · cases h
        exact Or.inr (Or.inr ⟨_, rfl⟩)

/-- A step is interrupted when the engine has answered and its figures overflow. -/
theorem step_error_elim {env : Env σ} {action : Index} {i : Interruption}
    (h : env.step E action = .error i) :
    ∃ session report, env.session = some session ∧
      let resolution := Resolution.resolve action env.tracker.legal
      let advanced := session.advance E resolution.effective
      advanced.answer = .ok report ∧
      env.tracker.turn report (read E advanced.state env.tracker report.phase).1
        resolution.penalty env.config.budget = .error i.cause := by
  unfold step at h
  split at h
  · cases h
  · rename_i session hsession
    dsimp only at h
    split at h
    · cases h
    · rename_i report hreport
      simp only [conclude] at h
      split at h
      · rename_i overflow hturn
        cases h
        exact ⟨session, report, hsession, hreport, hturn⟩
      · cases h

/-- A reset that fails keeps the seed it was given; one that succeeds begins anew on a fresh
session. -/
theorem reset_elim (env : Env σ) (seed : Option UInt64) :
    let opened := env.reset E seed
    let stored : Env σ := { env with seed := seed.getD env.seed }
    (∃ failure, opened.answer = .error failure ∧ opened.state = stored) ∨
    ∃ session report, (launch E env.config stored.seed).1 = .ok session ∧
      (session.probe E).answer = .ok report ∧
      opened.answer = .ok (View.opening report (Tracker.begin report)) ∧
      opened.state =
        { stored with
          session := some (session.probe E).state
          tracker := Tracker.begin report } := by
  intro opened stored
  cases hlaunch : launch E env.config stored.seed with
  | mk launched opening =>
    cases launched with
    | error failure =>
      refine Or.inl ⟨failure, ?_, ?_⟩ <;> simp [opened, reset, stored, hlaunch]
    | ok session =>
      cases hprobe : (session.probe E).answer with
      | error reason =>
        refine Or.inl ⟨.probe reason, ?_, ?_⟩ <;> simp [opened, reset, stored, hlaunch, hprobe]
      | ok report =>
        refine Or.inr ⟨session, report, rfl, hprobe, ?_, ?_⟩ <;>
          simp [opened, reset, stored, hlaunch, hprobe]

/-- A reset that succeeds begins anew on the engine launched with the seed that it stores. -/
theorem reset_ok_elim {env : Env σ} {seed : Option UInt64} {view : View}
    (h : (env.reset E seed).answer = .ok view) :
    ∃ session report, (launch E env.config (seed.getD env.seed)).1 = .ok session ∧
      (env.reset E seed).state = ⟨env.config, seed.getD env.seed, some (session.probe E).state,
        Tracker.begin report⟩ := by
  rcases reset_elim (E := E) env seed with ⟨failure, hfailure, -⟩ | hrenewed
  · rw [hfailure] at h
    cases h
  · obtain ⟨session, report, hlaunch, -, -, hstate⟩ := hrenewed
    exact ⟨session, report, hlaunch, hstate⟩

theorem steps_of_reset {env : Env σ} {seed : Option UInt64} {view : View}
    (h : (env.reset E seed).answer = .ok view) : (env.reset E seed).state.tracker.steps = 0 := by
  obtain ⟨session, report, -, hstate⟩ := reset_ok_elim h
  rw [hstate]
  rfl

theorem config_of_step {env : Env σ} {action : Index}
    {reply : Reply (Env σ) (Except Failure Transition)} {transition : Transition}
    (h : env.step E action = .ok reply) (ha : reply.answer = .ok transition) :
    reply.state.config = env.config := by
  obtain ⟨_, _, _, _, _, _, _, hstate⟩ := step_ok_elim h ha
  rw [hstate]

theorem seed_of_step {env : Env σ} {action : Index}
    {reply : Reply (Env σ) (Except Failure Transition)} {transition : Transition}
    (h : env.step E action = .ok reply) (ha : reply.answer = .ok transition) :
    reply.state.seed = env.seed := by
  obtain ⟨_, _, _, _, _, _, _, hstate⟩ := step_ok_elim h ha
  rw [hstate]

/-- Whatever comes of a step, it leaves settings and seed alone. -/
theorem kept_of_step {env : Env σ} {action : Index}
    {reply : Reply (Env σ) (Except Failure Transition)} (h : env.step E action = .ok reply) :
    reply.state.config = env.config ∧ reply.state.seed = env.seed := by
  rcases step_elim h with ⟨-, -, hstate⟩ | ⟨_, _, -, -, -, hstate⟩ | ⟨transition, hanswer⟩
  · rw [hstate]
    exact ⟨rfl, rfl⟩
  · rw [hstate]
    exact ⟨rfl, rfl⟩
  · exact ⟨config_of_step h hanswer, seed_of_step h hanswer⟩

/-- A new episode begins in a reset only. -/
theorem terminal_of_step {env : Env σ} {action : Index}
    {reply : Reply (Env σ) (Except Failure Transition)} {transition : Transition}
    (h : env.step E action = .ok reply) (ha : reply.answer = .ok transition) :
    transition.terminal = none := by
  obtain ⟨_, _, _, _, _, _, rfl, _⟩ := step_ok_elim h ha
  rfl

theorem steps_of_step {env : Env σ} {action : Index}
    {reply : Reply (Env σ) (Except Failure Transition)} {transition : Transition}
    (h : env.step E action = .ok reply) (ha : reply.answer = .ok transition) :
    reply.state.tracker.steps = env.tracker.steps + 1 := by
  obtain ⟨_, _, _, _, _, hturn, _, hstate⟩ := step_ok_elim h ha
  rw [hstate]
  exact Tracker.steps_of_turn hturn

theorem steps_lt_of_step {env : Env σ} {action : Index}
    {reply : Reply (Env σ) (Except Failure Transition)} {transition : Transition}
    (h : env.step E action = .ok reply) (ha : reply.answer = .ok transition)
    (hgoes : transition.terminated = false) : env.tracker.steps + 1 < env.config.budget := by
  obtain ⟨_, _, turn, _, _, hturn, rfl, _⟩ := step_ok_elim h ha
  exact Tracker.steps_lt_of_turn hturn (by simpa [Transition.terminated] using hgoes)

/-- The steps left in the budget. -/
def remaining (env : Env σ) : Nat := env.config.budget - env.tracker.steps

theorem remaining_of_step {env : Env σ} {action : Index}
    {reply : Reply (Env σ) (Except Failure Transition)} {transition : Transition}
    (h : env.step E action = .ok reply) (ha : reply.answer = .ok transition)
    (hgoes : transition.terminated = false) :
    reply.state.remaining + 1 = env.remaining := by
  have := steps_lt_of_step h ha hgoes
  simp only [remaining, config_of_step h ha, steps_of_step h ha]
  omega

end Env
end BlindArena
