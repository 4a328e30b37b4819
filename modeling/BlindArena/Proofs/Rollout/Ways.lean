import BlindArena.Proofs.Rollout.Batch
import BlindArena.Proofs.Rollout.Passes

/-!
# The ways a batch can go

A batch resets its fleet and steps it, round by round, until enough episodes have ended. Each of
these calls may fail, in any of the ways in which calls made in parallel can, and then the batch is
over and leaves the fleet as that call does. A batch that succeeds goes in one way.
-/

namespace BlindArena
variable {σ α : Type} {E : Engine σ} {A : Agent α}

/-- A round goes in one of the ways of its step. -/
theorem Table.steps_of_round {table : Table σ α}
    {reply : Reply (Table σ α) (Except Failure (List Summary))} (h : table.round E A = .ok reply) :
    ∃ reached answer,
      table.fleet.Steps E (table.choices A) reached answer reply.state.fleet ∧
        answer.map table.ended = reply.answer := by
  obtain ⟨stepped, hstep, hstate⟩ := state_of_round h
  obtain ⟨reached, hsteps⟩ := Fleet.steps_of_step hstep
  have hverdict := verdict_round (E := E) (A := A) table
  rw [h, hstep] at hverdict
  exact ⟨reached, stepped.answer, hstate ▸ hsteps, (Except.ok.inj hverdict).symm⟩

theorem Table.steps_of_round_ok {table : Table σ α}
    {reply : Reply (Table σ α) (Except Failure (List Summary))} {ended : List Summary}
    (h : table.round E A = .ok reply) (ha : reply.answer = .ok ended) :
    ∃ transitions, table.fleet.Steps E (table.choices A) (fun _ => true) (.ok transitions)
      reply.state.fleet := by
  obtain ⟨reached, answer, hsteps, hanswer⟩ := steps_of_round h
  rw [ha, map_eq_ok_iff] at hanswer
  obtain ⟨transitions, rfl, -⟩ := hanswer
  obtain ⟨rfl, -⟩ := Fleet.steps_ok_iff.1 hsteps
  exact ⟨transitions, hsteps⟩

namespace Rollout

/-- Everyone is seated with an environment that has been reset and its first view. -/
structure Opened (E : Engine σ) (fleet : Fleet σ) (agents : List α) (views : List View)
    (table : Table σ α) : Prop where
  length : agents.length = fleet.size
  answer : (fleet.reset E).answer = .ok views
  seats : table.seats = List.zipWith seat (fleet.reset E).state.envs (agents.zip views)

variable (E A) in
/-- The ways rounds can be played while episodes are wanted, and what they close. -/
inductive Plays :
    Nat → Table σ α → List Closing → Except Failure (List Summary) → Fleet σ → Prop
  | filled (table : Table σ α) : Plays 0 table [] (.ok []) table.fleet
  | failed {wanted : Nat} {table : Table σ α} {reached : Nat → Bool} {failure : Failure}
      {next : Fleet σ} (hwanted : wanted ≠ 0)
      (hstep : table.fleet.Steps E (table.choices A) reached (.error failure) next) :
      Plays wanted table (table.fleet.stepClosings E (table.choices A) reached)
        (.error failure) next
  | round {wanted : Nat} {table : Table σ α}
      {reply : Reply (Table σ α) (Except Failure (List Summary))} {ended : List Summary}
      {closings : List Closing} {answer : Except Failure (List Summary)} {next : Fleet σ}
      (hwanted : wanted ≠ 0) (hround : table.round E A = .ok reply)
      (hended : reply.answer = .ok ended)
      (later : Plays (wanted - ended.length) reply.state closings answer next) :
      Plays wanted table
        ((table.fleet.stepClosings E (table.choices A) fun _ => true) ++ closings)
        (answer.map (ended.take wanted ++ ·)) next

variable (E A) in
/-- The ways a batch can go, and what it closes. -/
inductive Batches (fleet : Fleet σ) (agents : List α) (episodes : Nat) :
    List Closing → Except Failure (List Summary) → Fleet σ → Prop
  | refused (hagents : agents.length ≠ fleet.size) :
      Batches fleet agents episodes [] (.error (.agentCount fleet.size agents.length)) fleet
  | unopened {reached : Nat → Bool} {failure : Failure} {next : Fleet σ}
      (hagents : agents.length = fleet.size)
      (hreset : fleet.Resets E reached (.error failure) next) :
      Batches fleet agents episodes [] (.error failure) next
  | played {reached : Nat → Bool} {views : List View} {opened : Fleet σ} {table : Table σ α}
      {closings : List Closing} {answer : Except Failure (List Summary)} {next : Fleet σ}
      (hagents : agents.length = fleet.size)
      (hreset : fleet.Resets E reached (.ok views) opened)
      (hfew : episodes ≤ Summary.maxKept)
      (hseats : table.seats = List.zipWith seat opened.envs (agents.zip views))
      (hplays : Plays E A episodes table closings answer next) :
      Batches fleet agents episodes closings answer next

variable {colours : Bool} {wanted : Nat} {table : Table σ α} {closings : List Closing}
  {next : Fleet σ} {fleet : Fleet σ} {agents : List α} {views : List View} {episodes : Nat}

/-- A round that ends as many episodes as are wanted is the last one. -/
theorem Plays.of_round {reply : Reply (Table σ α) (Except Failure (List Summary))}
    {ended : List Summary} (hwanted : wanted ≠ 0) (hround : table.round E A = .ok reply)
    (hended : reply.answer = .ok ended) (hfills : wanted ≤ ended.length) :
    Plays E A wanted table (table.fleet.stepClosings E (table.choices A) fun _ => true)
      (.ok (ended.take wanted)) reply.state.fleet := by
  have hlater : Plays E A (wanted - ended.length) reply.state [] (.ok []) reply.state.fleet := by
    rw [Nat.sub_eq_zero_of_le hfills]
    exact .filled reply.state
  simpa only [Except.map, List.append_nil] using Plays.round hwanted hround hended hlater

namespace Opened

theorem of_resets {reached : Nat → Bool} {opened : Fleet σ} (hagents : agents.length = fleet.size)
    (hreset : fleet.Resets E reached (.ok views) opened)
    (hseats : table.seats = List.zipWith Rollout.seat opened.envs (agents.zip views)) :
    Opened E fleet agents views table ∧ (fleet.reset E).state = opened := by
  obtain ⟨-, hanswer, rfl⟩ := Fleet.resets_ok_iff.1 hreset
  exact ⟨⟨hagents, hanswer, hseats⟩, rfl⟩

theorem seat (h : Opened E fleet agents views table) {s : Seat σ α} (hs : s ∈ table.seats) :
    s.running = { seed := s.env.seed } ∧
      ∃ (env : Env σ) (seed : Option UInt64), s.env = (env.reset E seed).state ∧
        (env.reset E seed).answer = .ok s.view := by
  obtain ⟨env, agent, view, -, hopening, rfl⟩ := seat_of_opening h.length h.answer h.seats hs
  exact ⟨rfl, env, some env.seed, rfl, hopening⟩

theorem seeded (h : Opened E fleet agents views table) : table.Seeded := by
  intro s hs
  rw [Seat.Seeded, (h.seat hs).1]

theorem fleet_eq (h : Opened E fleet agents views table) :
    table.fleet = (fleet.reset E).state := by
  have henvs : (fleet.reset E).state.envs.length = fleet.size := Fleet.size_reset E fleet
  have hlength := Fleet.length_of_reset E h.answer
  apply Fleet.eq_of_envs
  show table.seats.map (·.env) = _
  rw [h.seats]
  apply List.ext_getElem
  · simp [henvs, h.length, hlength]
  · intro place _ _
    simp [Rollout.seat]

end Opened

theorem plays_of_playRounds {played : Reply (Table σ α) (Except Failure (List Summary))}
    (h : playRounds E A colours wanted table = .ok played) :
    ∃ closings, Plays E A wanted table closings played.answer played.state.fleet := by
  fun_induction playRounds E A colours wanted table generalizing played with
  | case1 table =>
    cases h
    exact ⟨[], .filled table⟩
  | case2 | case4 => cases h
  | case3 wanted table hwanted reply hround failure hfailure =>
    cases h
    obtain ⟨reached, answer, hsteps, hanswer⟩ := Table.steps_of_round hround
    rw [hfailure, map_eq_error_iff] at hanswer
    subst hanswer
    exact ⟨_, .failed hwanted hsteps⟩
  | case5 wanted table hwanted reply hround =>
    rename_i ended hended _ said later hlater ih
    cases h
    obtain ⟨closings, hplays⟩ := ih hlater
    exact ⟨_, .round hwanted hround hended hplays⟩

theorem playRounds_of_plays (colours : Bool) {answer : Except Failure (List Summary)}
    (h : Plays E A wanted table closings answer next) {done : List Summary}
    (hdone : answer = .ok done) :
    ∃ played, playRounds E A colours wanted table = .ok played ∧ played.answer = .ok done ∧
      played.state.fleet = next := by
  induction h generalizing done with
  | filled table => exact ⟨⟨.ok [], table, []⟩, by rw [playRounds]; rfl, hdone, rfl⟩
  | failed => cases hdone
  | round hwanted hround hended _ ih =>
    obtain ⟨rest, hrest, rfl⟩ := map_eq_ok_iff.1 hdone
    obtain ⟨later, hlater, hanswer, hstate⟩ := ih hrest
    obtain ⟨said, hplayed⟩ := playRounds_eq_of_round hwanted hround hended hlater
    exact ⟨_, hplayed, by rw [hanswer, Except.map], hstate⟩

theorem batches_of_batch {played : Reply (Fleet σ) (Except Failure (List Summary))}
    (h : batch E A colours fleet agents episodes = .ok played) :
    ∃ closings, Batches E A fleet agents episodes closings played.answer played.state := by
  unfold batch at h
  split at h
  · rename_i hagents
    dsimp only at h
    split at h
    · rename_i failure hfailure
      cases h
      have hreset := Fleet.resets_reset (E := E) fleet
      rw [hfailure] at hreset
      exact ⟨[], .unopened hagents hreset⟩
    · rename_i views hviews
      split at h
      · cases h
      · rename_i hfew
        split at h
        · cases h
        · rename_i reply hreply
          cases h
          obtain ⟨closings, hplays⟩ := plays_of_playRounds hreply
          have hreset := Fleet.resets_ok_iff.2 ⟨rfl, hviews, rfl⟩
          exact ⟨closings, .played hagents hreset (Nat.le_of_not_lt hfew) rfl hplays⟩
  · rename_i hagents
    cases h
    exact ⟨[], .refused hagents⟩

theorem batches_ok_iff (colours : Bool) {done : List Summary} :
    (∃ closings, Batches E A fleet agents episodes closings (.ok done) next) ↔
      ∃ played, batch E A colours fleet agents episodes = .ok played ∧
        played.answer = .ok done ∧ played.state = next := by
  constructor
  · rintro ⟨closings, - | - | ⟨hagents, hreset, hfew, hseats, hplays⟩⟩
    obtain ⟨hopened, -⟩ := Opened.of_resets hagents hreset hseats
    obtain ⟨reply, hreply, hanswer, hstate⟩ := playRounds_of_plays colours hplays rfl
    obtain ⟨said, hbatch⟩ :=
      batch_eq_of_playRounds hopened.length hopened.answer hopened.seats hfew hreply
    exact ⟨_, hbatch, hanswer, hstate⟩
  · rintro ⟨played, hbatch, hanswer, rfl⟩
    rw [← hanswer]
    exact batches_of_batch hbatch

end Rollout
end BlindArena
