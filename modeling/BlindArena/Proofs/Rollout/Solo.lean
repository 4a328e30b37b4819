import BlindArena.Rollout.Batch

/-!
# Episodes on one environment

The summaries that one environment and one agent make in episode after episode, each from a fresh
reset, for as long as the episodes succeed. A seat in the middle of an episode has the rest of it
and the episodes after it ahead; a step that does not end the episode leaves these as they are, and
a step that ends it takes the first of them.
-/

namespace BlindArena

namespace Rollout
variable {σ α : Type} (E : Engine σ) (A : Agent α)

/-- The summary of an episode, if there is one, and what comes later. -/
def chained (outcome : Except Interruption (Played σ α)) (later : Env σ → α → List Summary) :
    List Summary :=
  match outcome with
  | .error _ => []
  | .ok played =>
    match played.answer with
    | .error _ => []
    | .ok summary => summary :: later played.env played.agent

/-- Up to so many episodes one after the other, with seeds a stride apart. -/
def solo (each : Transition → Transcript) (colours : Bool) (stride : UInt64) (env : Env σ)
    (agent : α) (seed : UInt64) : Nat → List Summary
  | 0 => []
  | count + 1 => chained (episode E A each colours env (some seed) agent) fun env agent =>
    solo each colours stride env agent (seed + stride) count

variable {E A} {each : Transition → Transcript} {colours : Bool} {env : Env σ} {agent : α}
  {view : View} {summary : Summary} {reply : Reply (Env σ) (Except Failure Transition)}
  {transition : Transition} {later : Env σ → α → List Summary}

theorem chained_playOn_of_goes (h : env.step E (A.act agent view).1 = .ok reply)
    (ha : reply.answer = .ok transition) (hgoes : transition.terminated = false) :
    chained (playOn E A each colours env agent view summary) later =
      chained (playOn E A each colours reply.state (A.act agent view).2 transition.view
        (summary.absorb transition)) later := by
  rw [playOn_of_step h ha, if_neg (by simp [hgoes])]
  cases playOn E A each colours reply.state (A.act agent view).2 transition.view
    (summary.absorb transition) <;> rfl

theorem chained_playOn_of_ends (h : env.step E (A.act agent view).1 = .ok reply)
    (ha : reply.answer = .ok transition) (hends : transition.terminated = true) :
    chained (playOn E A each colours env agent view summary) later =
      summary.absorb transition :: later reply.state (A.act agent view).2 := by
  rw [playOn_of_step h ha, if_pos hends]
  rfl

theorem steps_lt_of_playOn {played : Played σ α} {total : Summary}
    (h : playOn E A each colours env agent view summary = .ok played)
    (ha : played.answer = .ok total) : summary.steps < total.steps := by
  fun_induction playOn E A each colours env agent view summary generalizing played total with
  | case1 | case4 => cases h
  | case2 =>
    cases h
    cases ha
  | case3 env agent view summary =>
    cases h
    obtain rfl : _ = total := Except.ok.inj ha
    exact Nat.lt_succ_self _
  | case5 env agent view summary =>
    rename_i hrest ih
    cases h
    exact Nat.lt_trans (Nat.lt_succ_self _) (ih hrest ha)

end Rollout

variable {σ α : Type} (E : Engine σ) (A : Agent α)

/-- What a seat has ahead: the summary of its present episode, and those of up to so many episodes
in all. -/
def Seat.rest (each : Transition → Transcript) (colours : Bool) (stride : UInt64)
    (seat : Seat σ α) : Nat → List Summary
  | 0 => []
  | count + 1 =>
    Rollout.chained (Rollout.playOn E A each colours seat.env seat.agent seat.view seat.running)
      fun env agent => Rollout.solo E A each colours stride env agent (seat.env.seed + stride) count

namespace Seat
variable {E A} {each : Transition → Transcript} {colours : Bool} {stride : UInt64}
  {seat : Seat σ α} {reply : Reply (Seat σ α) (Except Failure (Option Summary))}

theorem steps_of_play (h : seat.play E A stride = .ok reply) (ha : reply.answer = .ok none) :
    reply.state.running.steps = seat.running.steps + 1 := by
  obtain ⟨stepped, transition, -, -, -, hstate⟩ := play_none_elim h ha
  rw [hstate]
  rfl

theorem steps_of_play_some {ended : Summary} (h : seat.play E A stride = .ok reply)
    (ha : reply.answer = .ok (some ended)) :
    ended.steps = seat.running.steps + 1 ∧ reply.state.running.steps = 0 := by
  obtain ⟨stepped, transition, opening, -, -, -, rfl, -, hstate⟩ := play_some_elim h ha
  rw [hstate]
  exact ⟨rfl, rfl⟩

theorem rest_of_reset {env : Env σ} {agent : α} {seed : UInt64} {view : View}
    (h : (env.reset E (some seed)).answer = .ok view) (count : Nat) :
    let opened := env.reset E (some seed)
    rest E A each colours stride ⟨opened.state, agent, view, { seed := opened.state.seed }⟩ count =
      Rollout.solo E A each colours stride env agent seed count := by
  intro opened
  cases count with
  | zero => rfl
  | succ count =>
    simp only [rest, Rollout.solo, Rollout.episode, h, opened, Env.seed_reset]
    cases Rollout.playOn E A each colours (env.reset E (some seed)).state agent view
      { seed := seed } <;> rfl

theorem rest_of_play (h : seat.play E A stride = .ok reply) (ha : reply.answer = .ok none)
    (count : Nat) :
    rest E A each colours stride reply.state count = seat.rest E A each colours stride count := by
  obtain ⟨stepped, transition, hstep, htransition, hgoes, hstate⟩ := play_none_elim h ha
  rw [hstate]
  cases count with
  | zero => rfl
  | succ count =>
    rw [rest, rest, Rollout.chained_playOn_of_goes hstep htransition hgoes]
    simp only [Env.seed_of_step hstep htransition]

theorem rest_of_play_some {ended : Summary} (h : seat.play E A stride = .ok reply)
    (ha : reply.answer = .ok (some ended)) (count : Nat) :
    seat.rest E A each colours stride (count + 1) =
      ended :: rest E A each colours stride reply.state count := by
  obtain ⟨stepped, transition, opening, hstep, htransition, hends, rfl, hopening, hstate⟩ :=
    play_some_elim h ha
  rw [hstate, rest_of_reset hopening, rest,
    Rollout.chained_playOn_of_ends hstep htransition hends, Env.seed_of_step hstep htransition]

theorem steps_lt_of_rest {count : Nat} {next : Summary} {later : List Summary}
    (h : seat.rest E A each colours stride count = next :: later) :
    seat.running.steps < next.steps := by
  cases count with
  | zero => cases h
  | succ count =>
    simp only [rest, Rollout.chained] at h
    split at h
    · cases h
    · rename_i played hplayed
      split at h
      · cases h
      · rename_i total htotal
        cases h
        exact Rollout.steps_lt_of_playOn hplayed htotal

end Seat
end BlindArena
