import BlindArena.Replay
import BlindArena.Rollout.Episode

/-!
# The course of an episode

An episode is a row of steps that do not end it and one step that ends it, fails or is interrupted.
Each of the steps in the row is counted, and one that is counted up to the budget would end the
episode, so the row is shorter than the budget. The summary of an episode that ends is its
transitions counted up.
-/

namespace BlindArena

namespace Summary

theorem steps_foldl (transitions : List Transition) (s : Summary) :
    (transitions.foldl absorb s).steps = s.steps + transitions.length := by
  induction transitions generalizing s with
  | nil => rfl
  | cons t transitions ih =>
    have hone : (s.absorb t).steps = s.steps + 1 := rfl
    rw [List.foldl_cons, ih, hone, List.length_cons]
    omega

theorem seed_foldl (transitions : List Transition) (s : Summary) :
    (transitions.foldl absorb s).seed = s.seed := by
  induction transitions generalizing s with
  | nil => rfl
  | cons t transitions ih => exact ih (s.absorb t)

theorem remaps_foldl (transitions : List Transition) (s : Summary) :
    (transitions.foldl absorb s).remaps =
      s.remaps + transitions.countP (·.last.info.remapped) := by
  induction transitions generalizing s with
  | nil => rfl
  | cons t transitions ih =>
    have hone : (s.absorb t).remaps = s.remaps + if t.last.info.remapped then 1 else 0 := rfl
    rw [List.foldl_cons, ih, hone, List.countP_cons]
    omega

theorem blinds_foldl {transitions : List Transition} (h : ∀ t ∈ transitions, t.terminated = false)
    (s : Summary) : (transitions.foldl absorb s).blinds = s.blinds := by
  induction transitions generalizing s with
  | nil => rfl
  | cons t transitions ih =>
    rw [List.forall_mem_cons] at h
    have hnone : t.ending = none := by simpa [Transition.terminated] using h.1
    rw [List.foldl_cons, ih h.2, absorb, hnone]
    rfl

end Summary

theorem Env.budget_le_of_step {σ : Type} {E : Engine σ} {env : Env σ} {action : Index}
    {reply : Reply (Env σ) (Except Failure Transition)} {transition : Transition}
    (h : env.step E action = .ok reply) (ha : reply.answer = .ok transition)
    (hending : transition.ending = some .budget) :
    env.config.budget ≤ reply.state.tracker.steps := by
  obtain ⟨session, report, turn, -, -, hturn, rfl, hstate⟩ := step_ok_elim h ha
  obtain ⟨seen, shaped, -, -, rfl⟩ := Tracker.turn_eq_ok_iff.1 hturn
  rw [hstate]
  simp only [Ending.decide] at hending
  split at hending
  · cases hending
  · split at hending
    · cases hending
    · split at hending
      · assumption
      · cases hending

variable {σ α : Type} (E : Engine σ) (A : Agent α)

namespace Rollout

/-- An agent in the middle of an episode, with the view it sees next. -/
structure Stage (σ α : Type) where
  env : Env σ
  agent : α
  view : View

namespace Stage

def step (stage : Stage σ α) : Except Interruption (Reply (Env σ) (Except Failure Transition)) :=
  stage.env.step E (A.act stage.agent stage.view).1

/-- Where a step leads. -/
def next (stage : Stage σ α) (env : Env σ) (transition : Transition) : Stage σ α :=
  ⟨env, (A.act stage.agent stage.view).2, transition.view⟩

end Stage

/-- Steps in a row that do not end the episode, with their transitions. -/
inductive Onward : Stage σ α → List Transition → Stage σ α → Prop
  | start (stage : Stage σ α) : Onward stage [] stage
  | step {stage last : Stage σ α} {reply : Reply (Env σ) (Except Failure Transition)}
      {transition : Transition} {passed : List Transition}
      (hstep : stage.step E A = .ok reply) (hanswer : reply.answer = .ok transition)
      (hgoes : transition.terminated = false)
      (later : Onward (stage.next A reply.state transition) passed last) :
      Onward stage (transition :: passed) last

/-- What comes of the step at the end of a row: an interruption, a failure, or the summary of the
row and this step. -/
inductive Upshot (summary : Summary) (passed : List Transition) (last : Stage σ α) :
    Except Interruption (Played σ α) → Prop
  | interrupted {i later : Interruption} (hstep : last.step E A = .error i)
      (hcause : later.cause = i.cause) : Upshot summary passed last (.error later)
  | failed {reply : Reply (Env σ) (Except Failure Transition)} {failure : Failure}
      {said : Transcript} (hstep : last.step E A = .ok reply)
      (hanswer : reply.answer = .error failure) :
      Upshot summary passed last
        (.ok ⟨.error failure, reply.state, (A.act last.agent last.view).2, passed, said⟩)
  | ended {reply : Reply (Env σ) (Except Failure Transition)} {transition : Transition}
      {said : Transcript} (hstep : last.step E A = .ok reply)
      (hanswer : reply.answer = .ok transition) (hends : transition.terminated = true) :
      Upshot summary passed last
        (.ok ⟨.ok ((passed ++ [transition]).foldl Summary.absorb summary), reply.state,
          (A.act last.agent last.view).2, passed ++ [transition], said⟩)

variable {E A}

namespace Onward
variable {stage last : Stage σ α} {passed : List Transition}

theorem kept (h : Onward E A stage passed last) :
    last.env.config = stage.env.config ∧ last.env.seed = stage.env.seed := by
  induction h with
  | start => exact ⟨rfl, rfl⟩
  | step hstep _ _ _ ih =>
    obtain ⟨hconfig, hseed⟩ := Env.kept_of_step hstep
    exact ⟨ih.1.trans hconfig, ih.2.trans hseed⟩

theorem goes (h : Onward E A stage passed last) :
    ∀ t ∈ passed, t.terminated = false ∧ t.terminal = none := by
  induction h with
  | start => simp
  | step hstep hanswer hgoes _ ih =>
    intro t ht
    rcases List.mem_cons.1 ht with rfl | ht
    · exact ⟨hgoes, Env.terminal_of_step hstep hanswer⟩
    · exact ih t ht

theorem steps (h : Onward E A stage passed last) :
    last.env.tracker.steps = stage.env.tracker.steps + passed.length := by
  induction h with
  | start => rfl
  | step hstep hanswer _ _ ih =>
    have hnext := Env.steps_of_step hstep hanswer
    rw [ih, Stage.next, hnext, List.length_cons]
    omega

theorem steps_lt (h : Onward E A stage passed last)
    (hstart : stage.env.tracker.steps < max 1 stage.env.config.budget) :
    last.env.tracker.steps < max 1 stage.env.config.budget := by
  induction h with
  | start => exact hstart
  | step hstep hanswer hgoes _ ih =>
    have hlt := Env.steps_lt_of_step hstep hanswer hgoes
    have hnext := Env.steps_of_step hstep hanswer
    have hconfig := Env.config_of_step hstep hanswer
    simp only [Stage.next, hnext, hconfig] at ih
    exact ih (by omega)

end Onward

theorem Upshot.after {summary : Summary} {transition : Transition} {passed : List Transition}
    {last : Stage σ α} {result : Except Interruption (Played σ α)} (said : Transcript) :
    Upshot E A (summary.absorb transition) passed last result →
    Upshot E A summary (transition :: passed) last
      (match result with
      | .error i => .error (i.after said)
      | .ok played =>
        .ok
          { played with
            transitions := transition :: played.transitions
            transcript := said ++ played.transcript }) := by
  intro h
  cases h with
  | interrupted hstep hcause => exact .interrupted hstep hcause
  | failed hstep hanswer => exact .failed hstep hanswer
  | ended hstep hanswer hends => exact .ended hstep hanswer hends

theorem Upshot.written {summary : Summary} {passed : List Transition} {last : Stage σ α}
    {result : Except Interruption (Played σ α)} (said : Transcript) :
    Upshot E A summary passed last result → Upshot E A summary passed last
      (match result with
      | .error i => .error (i.after said)
      | .ok played => .ok { played with transcript := said ++ played.transcript }) := by
  intro h
  cases h with
  | interrupted hstep hcause => exact .interrupted hstep hcause
  | failed hstep hanswer => exact .failed hstep hanswer
  | ended hstep hanswer hends => exact .ended hstep hanswer hends

theorem Upshot.ended_elim {summary total : Summary} {passed : List Transition} {last : Stage σ α}
    {played : Played σ α} (h : Upshot E A summary passed last (.ok played))
    (htotal : played.answer = .ok total) :
    ∃ reply transition said, last.step E A = .ok reply ∧ reply.answer = .ok transition ∧
      transition.terminated = true ∧
      total = (passed ++ [transition]).foldl Summary.absorb summary ∧
      played = ⟨.ok total, reply.state, (A.act last.agent last.view).2, passed ++ [transition],
        said⟩ := by
  cases h with
  | failed hstep hanswer => cases htotal
  | ended hstep hanswer hends =>
    cases htotal
    exact ⟨_, _, _, hstep, hanswer, hends, rfl, rfl⟩

theorem upshot_of_playOn (each : Transition → Transcript) (colours : Bool) (env : Env σ) (agent : α)
    (view : View) (summary : Summary) :
    ∃ passed last, Onward E A ⟨env, agent, view⟩ passed last ∧
      Upshot E A summary passed last (playOn E A each colours env agent view summary) := by
  fun_induction playOn E A each colours env agent view summary with
  | case1 env agent view summary choice i hstep =>
    exact ⟨[], ⟨env, agent, view⟩, .start _, .interrupted hstep rfl⟩
  | case2 env agent view summary choice reply hstep failure hanswer =>
    exact ⟨[], ⟨env, agent, view⟩, .start _, .failed hstep hanswer⟩
  | case3 env agent view summary choice reply hstep transition hanswer total said hends =>
    exact ⟨[], ⟨env, agent, view⟩, .start _, .ended hstep hanswer hends⟩
  | case4 env agent view summary choice reply hstep transition hanswer total said hgoes _ _ hrest ih
  | case5 env agent view summary choice reply hstep transition hanswer total said hgoes _ _ hrest
    ih =>
    -- the step goes on, so it comes before the row of the rest
    obtain ⟨passed, last, honward, hupshot⟩ := ih
    rw [hrest] at hupshot
    exact ⟨transition :: passed, last, .step hstep hanswer hgoes honward, hupshot.after said⟩

variable (E) in
/-- What a summary says of the episode it comes from, given the environment as it was reset. -/
structure Faithful (opened : Env σ) (played : Played σ α) (summary : Summary) : Prop where
  seed : summary.seed = opened.seed
  /-- The engine that is played is the one launched with this seed. -/
  engine : ∃ session, (Env.launch E opened.config summary.seed).1 = .ok session ∧
    opened.session = some (session.probe E).state
  steps : summary.steps = played.transitions.length
  counted : summary.steps = played.env.tracker.steps
  within : summary.steps ≤ max 1 opened.config.budget
  /-- The last transition is the only one that terminates. -/
  last : ∃ passed t, played.transitions = passed ++ [t] ∧
    (∀ s ∈ passed, s.terminated = false) ∧ t.terminated = true ∧
    summary.ending = t.ending ∧ summary.phase = t.view.info.phase
  untruncated : ∀ t ∈ played.transitions, t.truncated = false
  budget : summary.ending = some .budget → summary.steps = max 1 opened.config.budget
  remaps : summary.remaps = played.transitions.countP (·.view.info.remapped)
  blinds : summary.blinds = if summary.ending = some .blind then 1 else 0

/-- A row that begins with the first step, and a step that ends the episode, are summed up
faithfully. -/
theorem Upshot.faithful {opened : Env σ} {agent : α} {view : View} {passed : List Transition}
    {last : Stage σ α} {played : Played σ α} {summary : Summary}
    (hengine : ∃ session, (Env.launch E opened.config opened.seed).1 = .ok session ∧
      opened.session = some (session.probe E).state)
    (hfresh : opened.tracker.steps = 0) (honward : Onward E A ⟨opened, agent, view⟩ passed last)
    (h : Upshot E A { seed := opened.seed } passed last (.ok played))
    (hsummary : played.answer = .ok summary) : Faithful E opened played summary := by
  obtain ⟨reply, transition, said, hstep, hanswer, hends, rfl, rfl⟩ := h.ended_elim hsummary
  have hgoes := honward.goes
  -- nothing is reset within an episode, so each transition hands out its own last view
  have hlast : ∀ t ∈ passed ++ [transition], t.last = t.view := by
    intro t ht
    have hterminal : t.terminal = none := by
      rcases List.mem_append.1 ht with ht | ht
      · exact (hgoes t ht).2
      · rw [List.mem_singleton.1 ht]
        exact Env.terminal_of_step hstep hanswer
    rw [Transition.last, hterminal]
    rfl
  have hlength : (passed ++ [transition]).length = passed.length + 1 := List.length_append
  have hsteps : ((passed ++ [transition]).foldl Summary.absorb { seed := opened.seed }).steps =
      passed.length + 1 := by
    rw [Summary.steps_foldl, hlength, Nat.zero_add]
  have hcounted : reply.state.tracker.steps = passed.length + 1 := by
    rw [Env.steps_of_step hstep hanswer, honward.steps, hfresh, Nat.zero_add]
  have hlt := honward.steps_lt (by rw [hfresh]; omega)
  rw [honward.steps, hfresh, Nat.zero_add] at hlt
  have hended : (passed ++ [transition]).foldl Summary.absorb { seed := opened.seed } =
      (passed.foldl Summary.absorb { seed := opened.seed }).absorb transition :=
    List.foldl_append
  exact
    { seed := Summary.seed_foldl _ _
      engine := by
        rw [Summary.seed_foldl]
        exact hengine
      steps := hsteps.trans hlength.symm
      counted := hsteps.trans hcounted.symm
      within := by
        rw [hsteps]
        exact hlt
      last := by
        refine ⟨passed, transition, rfl, fun t ht => (hgoes t ht).1, hends, by rw [hended]; rfl, ?_⟩
        rw [hended, Summary.absorb, hlast transition (by simp)]
      untruncated := fun _ _ => rfl
      budget := by
        intro hbudget
        rw [hended] at hbudget
        have hspent := Env.budget_le_of_step hstep hanswer hbudget
        rw [honward.kept.1, hcounted] at hspent
        rw [hsteps]
        exact Nat.le_antisymm hlt (Nat.max_le.2 ⟨Nat.succ_pos _, hspent⟩)
      remaps := by
        rw [Summary.remaps_foldl, Nat.zero_add]
        exact List.countP_congr fun t ht => by rw [hlast t ht]
      blinds := by
        have hnone := Summary.blinds_foldl (fun t ht => (hgoes t ht).1)
          ({ seed := opened.seed } : Summary)
        rw [hended, Summary.absorb, hnone, Nat.zero_add] }

/-- An episode always ends, after at least one step and within its budget: in a reset that fails, in
a step that fails or is interrupted, or with a faithful summary. -/
theorem episode_ends (each : Transition → Transcript) (colours : Bool) (env : Env σ)
    (seed : Option UInt64) (agent : α) :
    let opened := env.reset E seed
    let result := episode E A each colours env seed agent
    (∃ failure, opened.answer = .error failure ∧
      result = .ok ⟨.error failure, opened.state, agent, [], opened.transcript⟩) ∨
    ∃ view passed last, opened.answer = .ok view ∧ opened.state.seed = seed.getD env.seed ∧
      opened.state.config = env.config ∧
      Onward E A ⟨opened.state, agent, view⟩ passed last ∧
      passed.length + 1 ≤ max 1 env.config.budget ∧
      Upshot E A { seed := opened.state.seed } passed last result ∧
      ∀ played summary, result = .ok played → played.answer = .ok summary →
        Faithful E opened.state played summary := by
  intro opened result
  cases hopening : opened.answer with
  | error failure =>
    refine Or.inl ⟨failure, rfl, ?_⟩
    simp only [result, episode, opened] at hopening ⊢
    rw [hopening]
  | ok view =>
    obtain ⟨session, report, hlaunch, hopened⟩ := Env.reset_ok_elim hopening
    have hengine : ∃ session, (Env.launch E opened.state.config opened.state.seed).1 = .ok session ∧
        opened.state.session = some (session.probe E).state :=
      ⟨session, by rw [hopened]; exact hlaunch, by rw [hopened]⟩
    have hfresh : opened.state.tracker.steps = 0 := by rw [hopened]; rfl
    have hseed : opened.state.seed = seed.getD env.seed := by rw [hopened]
    have hconfig : opened.state.config = env.config := Env.config_reset env seed
    obtain ⟨passed, last, honward, hplayed⟩ := upshot_of_playOn (E := E) (A := A) each colours
      opened.state agent view { seed := opened.state.seed }
    have hupshot : Upshot E A { seed := opened.state.seed } passed last result := by
      simp only [result, episode]
      rw [hopening]
      exact hplayed.written opened.transcript
    have hlt := honward.steps_lt (by rw [hfresh]; omega)
    rw [honward.steps, hfresh, Nat.zero_add, hconfig] at hlt
    refine Or.inr ⟨view, passed, last, rfl, hseed, hconfig, honward, hlt, hupshot, ?_⟩
    intro played summary hresult hsummary
    rw [hresult] at hupshot
    exact hupshot.faithful hengine hfresh honward hsummary

def lasting : Script where
  frames := [{ report := some (.input .blindSelect [⟨1, "select"⟩]) },
    { report := some (.input .playing [⟨0, "play"⟩]) },
    { report := some (.input .playing [⟨0, "play"⟩]) }]

theorem episode_ends_of_lasting :
    ∃ env played summary,
      (Env.make lasting.engine { seed := some 4, budget := 2 } 0).1 = .ok env ∧
      episode lasting.engine Player.agent (fun _ => []) false env (some 7) .first = .ok played ∧
      played.answer = .ok summary ∧ summary.seed = 7 ∧ summary.ending = some .budget ∧
      Faithful lasting.engine (env.reset lasting.engine (some 7)).state played summary := by
  obtain ⟨env, view, once, twice, first, second, hmake, hopening, honce, hfirst, hgoes, htwice,
      hsecond, hends, hbudget⟩ :
      ∃ env view, ∃ once twice : Reply (Env Nat) (Except Failure Transition), ∃ first second,
        (Env.make lasting.engine { seed := some 4, budget := 2 } 0).1 = .ok env ∧
        (env.reset lasting.engine (some 7)).answer = .ok view ∧
        (env.reset lasting.engine (some 7)).state.step lasting.engine
          (Player.agent.act .first view).1 = .ok once ∧
        once.answer = .ok first ∧ first.terminated = false ∧
        once.state.step lasting.engine
          (Player.agent.act (Player.agent.act .first view).2 first.view).1 = .ok twice ∧
        twice.answer = .ok second ∧ second.terminated = true ∧ second.ending = some .budget :=
    ⟨_, _, _, _, _, _, rfl, rfl, rfl, rfl, rfl, rfl, rfl, rfl, rfl⟩
  obtain ⟨played, hplayed, hanswer⟩ : ∃ played,
      episode lasting.engine Player.agent (fun _ => []) false env (some 7) .first = .ok played ∧
        played.answer = .ok ((Summary.absorb { seed := 7 } first).absorb second) := by
    simp only [episode, hopening, Env.seed_reset]
    rw [playOn_of_step honce hfirst, if_neg (by simp [hgoes]), playOn_of_step htwice hsecond,
      if_pos hends]
    exact ⟨_, rfl, rfl⟩
  rcases episode_ends (E := lasting.engine) (A := Player.agent) (fun _ => []) false env (some 7)
    .first with ⟨failure, hfailure, -⟩ | ⟨_, _, _, -, -, -, -, -, -, hfaithful⟩
  · rw [hopening] at hfailure
    cases hfailure
  · exact ⟨env, played, _, hmake, hplayed, hanswer, rfl, hbudget, hfaithful _ _ hplayed hanswer⟩

end Rollout
end BlindArena
