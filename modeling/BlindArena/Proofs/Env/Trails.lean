import BlindArena.Proofs.Env.Offers

/-!
# Trails of calls

A trail keeps each call of a run with its answer and the environment before and after it; what is
heard of it are the answers and the trackers. No call looks at the seed that the settings name, and
only a reset without a seed looks at the stored one. A reset with a seed that succeeds leaves
nothing else of what was before, so all that is heard from it on is heard of an environment freshly
made with that seed.
-/

namespace BlindArena
namespace Env

structure Entry (σ : Type) where
  before : Env σ
  call : Call
  answer : Answer
  after : Env σ

variable {σ : Type} (E : Engine σ)

def trail (env : Env σ) : List Call → Except Interruption (List (Entry σ))
  | [] => .ok []
  | call :: calls =>
    match call.perform E env with
    | .error i => .error i
    | .ok (answer, next) => (next.trail calls).map (⟨env, call, answer, next⟩ :: ·)

/-- The answers to calls in a row, each with the tracker after it. -/
def heard (env : Env σ) (calls : List Call) : Except Interruption (List (Answer × Tracker)) :=
  (env.trail E calls).map fun entries => entries.map fun x => (x.answer, x.after.tracker)

variable {E} {env last : Env σ} {answers : List Answer}

theorem heard_cons (env : Env σ) (call : Call) (calls : List Call) :
    env.heard E (call :: calls) =
      (call.perform E env).bind fun (answer, next) =>
        (next.heard E calls).map ((answer, next.tracker) :: ·) := by
  cases hcall : call.perform E env with
  | error i => simp [heard, trail, hcall, Except.map, Except.bind]
  | ok performed =>
    obtain ⟨answer, next⟩ := performed
    cases hlater : next.trail E calls <;>
      simp [heard, trail, hcall, hlater, Except.map, Except.bind]

theorem trail_cons_ok_elim {call : Call} {calls : List Call} {entries : List (Entry σ)}
    (h : env.trail E (call :: calls) = .ok entries) :
    ∃ answer next later, call.perform E env = .ok (answer, next) ∧
      next.trail E calls = .ok later ∧ entries = ⟨env, call, answer, next⟩ :: later := by
  cases hcall : call.perform E env with
  | error i => simp [trail, hcall] at h
  | ok performed =>
    obtain ⟨answer, next⟩ := performed
    cases hlater : next.trail E calls with
    | error i => simp [trail, hcall, hlater, Except.map] at h
    | ok later =>
      simp only [trail, hcall, hlater, Except.map, Except.ok.injEq] at h
      exact ⟨answer, next, later, rfl, hlater, h.symm⟩

/-- A run leaves a trail of its answers. What every call keeps, of the entries so far and the
environment after them, holds at the end of it. -/
theorem trail_of_run {P : List (Entry σ) → Env σ → Prop}
    (hcall : ∀ past env call answer next, P past env →
      Call.perform E env call = .ok (answer, next) → P (past ++ [⟨env, call, answer, next⟩]) next)
    {calls : List Call} (past : List (Entry σ)) (hpast : P past env)
    (hrun : env.run E calls = .ok (answers, last)) :
    ∃ entries, env.trail E calls = .ok entries ∧ entries.map (·.answer) = answers ∧
      P (past ++ entries) last := by
  induction calls generalizing env past answers with
  | nil =>
    cases hrun
    exact ⟨[], rfl, rfl, by simpa using hpast⟩
  | cons call calls ih =>
    obtain ⟨answer, next, later, hperform, hlater, rfl⟩ := run_cons_ok_elim hrun
    have hnext := hcall past env call answer next hpast hperform
    obtain ⟨entries, htrail, hanswers, hlast⟩ := ih _ hnext hlater
    refine ⟨⟨env, call, answer, next⟩ :: entries, ?_, by simp [hanswers], by simpa using hlast⟩
    simp only [trail, hperform, htrail, Except.map]

/-! ## Other seeds -/

/-- The same environment with other seeds: the one that is set and the one that is stored. -/
def reseed (env : Env σ) (set : Option UInt64) (stored : UInt64) : Env σ :=
  { env with config := { env.config with seed := set }, seed := stored }

theorem step_reseed (env : Env σ) (set : Option UInt64) (stored : UInt64) (action : Index) :
    (env.reseed set stored).step E action =
      (env.step E action).map fun reply =>
        { reply with state := reply.state.reseed set stored } := by
  obtain ⟨config, seed, session, tracker⟩ := env
  unfold step
  cases session with
  | none => rfl
  | some session =>
    dsimp only [reseed]
    cases (session.advance E (Resolution.resolve action tracker.legal).effective).answer with
    | error reason => rfl
    | ok report =>
      simp only [conclude]
      split <;> rfl

theorem reset_reseed (env : Env σ) (set seed : Option UInt64) :
    (env.reseed set env.seed).reset E seed =
      let opened := env.reset E seed
      { opened with state := opened.state.reseed set opened.state.seed } := by
  obtain ⟨config, stored, session, tracker⟩ := env
  unfold reset launch
  dsimp only [reseed]
  split
  · rfl
  · split <;> rfl

theorem perform_reseed (env : Env σ) (set : Option UInt64) (call : Call) :
    call.perform E (env.reseed set env.seed) =
      (call.perform E env).map fun (answer, next) => (answer, next.reseed set next.seed) := by
  cases call with
  | reset seed =>
    simp only [Call.perform, reset_reseed]
    rfl
  | step action =>
    simp only [Call.perform, step_reseed]
    cases hstep : env.step E action with
    | error i => rfl
    | ok reply =>
      have hseed := (kept_of_step hstep).2
      simp only [Except.map, hseed]
  | close => rfl

theorem heard_reseed (env : Env σ) (set : Option UInt64) (calls : List Call) :
    (env.reseed set env.seed).heard E calls = env.heard E calls := by
  induction calls generalizing env with
  | nil => rfl
  | cons call calls ih =>
    rw [heard_cons, heard_cons, perform_reseed]
    cases call.perform E env with
    | error i => rfl
    | ok performed =>
      obtain ⟨answer, next⟩ := performed
      simp only [Except.map, Except.bind, ih]
      rfl

theorem heard_steps_reseed (env : Env σ) (set : Option UInt64) (stored : UInt64)
    (actions : List Index) :
    (env.reseed set stored).heard E (actions.map .step) = env.heard E (actions.map .step) := by
  induction actions generalizing env with
  | nil => rfl
  | cons action actions ih =>
    rw [List.map_cons, heard_cons, heard_cons]
    simp only [Call.perform, step_reseed]
    cases env.step E action with
    | error i => rfl
    | ok reply =>
      simp only [Except.map, Except.bind, ih]
      rfl

/-! ## After a reset -/

/-- What a reset with a seed leaves depends on the settings only, and not on the seed among them. -/
theorem reset_of_config {env other : Env σ} {set : Option UInt64} {seed : UInt64} {view : View}
    (hconfig : other.config = { env.config with seed := set })
    (hreset : (env.reset E (some seed)).answer = .ok view) :
    (other.reset E (some seed)).answer = .ok view ∧
      (other.reset E (some seed)).state =
        (env.reset E (some seed)).state.reseed set (env.reset E (some seed)).state.seed := by
  obtain ⟨config, stored, session, tracker⟩ := env
  obtain ⟨config', stored', session', tracker'⟩ := other
  obtain rfl : config' = { config with seed := set } := hconfig
  unfold reset launch at hreset ⊢
  dsimp only [Option.getD_some] at hreset ⊢
  split at hreset
  · cases hreset
  · split at hreset
    · cases hreset
    · exact ⟨hreset, rfl⟩

theorem make_of_reset {seed : UInt64} {view : View}
    (hreset : (env.reset E (some seed)).answer = .ok view) (word : UInt64) :
    ∃ fresh, (make E (env.config.seeded seed) word).1 = .ok fresh ∧
      fresh.config = env.config.seeded seed ∧ fresh.seed = seed := by
  rcases reset_elim (E := E) env (some seed) with ⟨failure, hanswer, -⟩ | ⟨session, -, hlaunch, -⟩
  · rw [hanswer] at hreset
    cases hreset
  · exact ⟨⟨env.config.seeded seed, seed, some session, {}⟩,
      make_eq_ok_iff.2 ⟨session, hlaunch, rfl⟩, rfl, rfl⟩

theorem config_of_run {calls : List Call} (h : env.run E calls = .ok (answers, last)) :
    last.config = env.config := by
  refine invariant_of_run (P := fun _ later => later.config = env.config) ?_ [] rfl h
  rintro - later call answer next hlater hperform
  cases call with
  | reset seed =>
    cases hperform
    rw [config_reset, hlater]
  | step action =>
    obtain ⟨reply, hstep, -, rfl⟩ := perform_step_ok_elim hperform
    rw [(kept_of_step hstep).1, hlater]
  | close =>
    cases hperform
    exact hlater

/-- Whatever an environment has been through, once it is reset to a seed it answers, and counts, as
one that is freshly made with that seed and then reset: to any calls, and so to the first of them
also where a later one is interrupted. -/
theorem heard_from_reset {config : Config} {word : UInt64} {made : Env σ} {history : List Call}
    {seed : UInt64} {view : View} (hmake : (make E config word).1 = .ok made)
    (hrun : made.run E history = .ok (answers, last))
    (hreset : (last.reset E (some seed)).answer = .ok view) (word' : UInt64) :
    ∃ fresh, (make E (config.seeded seed) word').1 = .ok fresh ∧
      ∀ calls, last.heard E (.reset (some seed) :: calls) =
        fresh.heard E (.reset none :: calls) := by
  have hconfig : last.config = config := (config_of_run hrun).trans (config_of_make hmake)
  obtain ⟨fresh, hfresh, hset, hstored⟩ := make_of_reset hreset word'
  rw [hconfig] at hfresh hset
  refine ⟨fresh, hfresh, fun calls => ?_⟩
  have hother : fresh.config = { last.config with seed := some seed } := by
    rw [hset, hconfig]
    rfl
  obtain ⟨hanswer, hstate⟩ := reset_of_config hother hreset
  have hnone : Call.perform E fresh (.reset none) = Call.perform E fresh (.reset (some seed)) := by
    rw [Call.perform, Call.perform, reset_none, hstored]
  rw [heard_cons, heard_cons, hnone]
  simp only [Call.perform, Except.bind, hanswer, hreset, hstate, heard_reseed]
  rfl

/-- The engine has failed, refused a seed, been closed and stepped past its ending before. -/
theorem heard_from_reset_of_busy :
    let config : Config := { budget := 1 }
    let history : List Call :=
      [.step 7, .reset (some 9), .close, .step 1, .reset (some 3), .step 8, .step 2, .step 5]
    ∃ made answers last view fresh heard,
      (make busy.engine config 4).1 = .ok made ∧
      made.run busy.engine history = .ok (answers, last) ∧ last.tracker.steps = 2 ∧
      (last.reset busy.engine (some 6)).answer = .ok view ∧
      (make busy.engine (config.seeded 6) 0).1 = .ok fresh ∧
      last.heard busy.engine [.reset (some 6), .step 8, .step 2] = .ok heard ∧
      fresh.heard busy.engine [.reset none, .step 8, .step 2] = .ok heard := by
  intro config history
  obtain ⟨made, answers, last, view, heard, hmake, hrun, hsteps, hreset, hlast⟩ :
      ∃ made answers last view heard, (make busy.engine config 4).1 = .ok made ∧
        made.run busy.engine history = .ok (answers, last) ∧ last.tracker.steps = 2 ∧
        (last.reset busy.engine (some 6)).answer = .ok view ∧
        last.heard busy.engine [.reset (some 6), .step 8, .step 2] = .ok heard :=
    ⟨_, _, _, _, _, rfl, rfl, rfl, rfl, rfl⟩
  obtain ⟨fresh, hfresh, hheard⟩ := heard_from_reset hmake hrun hreset 0
  exact ⟨made, answers, last, view, fresh, heard, hmake, hrun, hsteps, hreset, hfresh, hlast,
    (hheard _).symm.trans hlast⟩

end Env
end BlindArena
