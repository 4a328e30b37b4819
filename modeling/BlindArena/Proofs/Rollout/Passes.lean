import BlindArena.Proofs.Rollout.Calls
import Mathlib.Data.List.Forall2

/-!
# Rounds as steps of the fleet

A round is a step of the fleet with the choices of the agents. It is interrupted or fails as the
step does, and otherwise it sums up every episode that the step terminates. A batch plays rounds
until no more episodes are wanted, or until one of these steps does not succeed.
-/

namespace BlindArena

/-- What a call answers, or why it is interrupted. -/
def verdict {σ α : Type} : Except Interruption (Reply σ α) → Except Overflow α
  | .error i => .error i.cause
  | .ok reply => .ok reply.answer

theorem collect_map_verdict {σ α : Type} (calls : List (Except Interruption (Reply σ α))) :
    collect (calls.map verdict) =
      match gather calls with
      | .error i => .error i.cause
      | .ok replies => .ok (replies.map (·.answer)) := by
  have hall : collect (calls.map verdict) =
      match collect calls with
      | .error i => .error i.cause
      | .ok replies => .ok (replies.map (·.answer)) := by
    induction calls with
    | nil => rfl
    | cons call calls ih =>
      cases call with
      | error i => rfl
      | ok reply =>
        simp only [List.map_cons, verdict, collect, ih]
        cases collect calls <;> rfl
  rw [hall, gather]
  cases collect calls <;> rfl

theorem collect_zipWith {ι ε β γ : Type} (f : ι → β → γ) {xs : List ι} {calls : List (Except ε β)}
    (h : xs.length = calls.length) :
    collect (List.zipWith (fun x call => call.map (f x)) xs calls) =
      (collect calls).map (List.zipWith f xs) := by
  induction xs generalizing calls with
  | nil =>
    obtain rfl := List.eq_nil_of_length_eq_zero h.symm
    rfl
  | cons x xs ih =>
    cases calls with
    | nil => cases h
    | cons call calls =>
      cases call with
      | error failure => rfl
      | ok b =>
        have hrest := ih (Nat.succ.inj h)
        simp only [List.zipWith_cons_cons, Except.map, collect] at hrest ⊢
        rw [hrest]
        cases collect calls <;> rfl

section map
variable {ε β γ : Type} {f : β → γ} {v : Except ε β}

theorem map_eq_ok_iff {c : γ} : v.map f = .ok c ↔ ∃ b, v = .ok b ∧ f b = c := by
  cases v <;> simp [Except.map]

theorem map_eq_error_iff {failure : ε} : v.map f = .error failure ↔ v = .error failure := by
  cases v <;> simp [Except.map]

end map

variable {σ α : Type} (E : Engine σ) (A : Agent α)

namespace Fleet
variable {E} {fleet : Fleet σ} {actions : List Index} {transitions : List Transition}

theorem verdict_step (h : actions.length = fleet.size) :
    verdict (fleet.step E actions) =
      (collect (List.zipWith (fun env action => verdict (advance E fleet.stride env action))
        fleet.envs actions)).map collect := by
  have hcalls := collect_map_verdict (List.zipWith (advance E fleet.stride) fleet.envs actions)
  rw [List.map_zipWith] at hcalls
  rw [step, dif_pos h]
  split
  · rename_i i hgather
    rw [hcalls, hgather]
    rfl
  · rename_i replies hgather
    rw [hgather] at hcalls
    rw [hcalls]
    rfl

theorem length_of_step (h : actions.length = fleet.size)
    (hstep : verdict (fleet.step E actions) = .ok (.ok transitions)) :
    transitions.length = fleet.size := by
  rw [verdict_step h] at hstep
  cases hanswers : collect (List.zipWith
      (fun env action => verdict (advance E fleet.stride env action)) fleet.envs actions) with
  | error cause =>
    rw [hanswers] at hstep
    cases hstep
  | ok answers =>
    rw [hanswers] at hstep
    have htransitions := collect_eq_ok_iff.1 (Except.ok.inj hstep)
    have hlength := congrArg List.length (collect_eq_ok_iff.1 hanswers)
    rw [htransitions, List.length_zipWith, List.length_map, List.length_map, h] at hlength
    simpa [size] using hlength.symm

end Fleet

def Sums (s : Summary) (t : Transition) : Prop := ∃ running : Summary, s = running.absorb t

namespace Seat

def ended (seat : Seat σ α) (transition : Transition) : Option Summary :=
  if transition.terminated then some (seat.running.absorb transition) else none

variable {E A}

theorem verdict_play (stride : UInt64) (seat : Seat σ α) :
    verdict (seat.play E A stride) =
      (verdict (Fleet.advance E stride seat.env (seat.choice A))).map (Except.map seat.ended) := by
  rw [play, choice]
  cases Fleet.advance E stride seat.env (A.act seat.agent seat.view).1 with
  | error i => rfl
  | ok reply =>
    simp only [Except.map, verdict]
    cases reply.answer with
    | error failure => rfl
    | ok transition =>
      by_cases hends : transition.terminated = true
      · simp [ended, hends]
      · simp [ended, hends]

theorem sums_of_length {seats : List (Seat σ α)} {transitions : List Transition}
    (h : transitions.length = seats.length) :
    List.Forall₂ Sums ((List.zipWith ended seats transitions).filterMap id)
      (transitions.filter (·.terminated)) := by
  induction seats generalizing transitions with
  | nil =>
    obtain rfl := List.eq_nil_of_length_eq_zero h
    exact .nil
  | cons seat seats ih =>
    cases transitions with
    | nil => cases h
    | cons t transitions =>
      have hrest := ih (Nat.succ.inj h)
      by_cases hends : t.terminated = true
      · simpa [ended, hends] using List.Forall₂.cons ⟨seat.running, rfl⟩ hrest
      · simpa [ended, hends] using hrest

end Seat

namespace Table

/-- The summaries of the episodes that these transitions terminate, by seat. -/
def ended (table : Table σ α) (transitions : List Transition) : List Summary :=
  (List.zipWith Seat.ended table.seats transitions).filterMap id

variable {E A} {table : Table σ α} {transitions : List Transition}

/-- A round has the verdict of the step, with the transitions summed up. -/
theorem verdict_round (table : Table σ α) :
    verdict (table.round E A) =
      (verdict (table.fleet.step E (table.choices A))).map (Except.map table.ended) := by
  have hplays : verdict (table.round E A) =
      (collect (table.seats.map fun seat => verdict (seat.play E A table.fleet.stride))).map
        fun answers => (collect answers).map (·.filterMap id) := by
    have hcalls := collect_map_verdict (table.seats.map (Seat.play E A table.fleet.stride))
    rw [List.map_map, Function.comp_def] at hcalls
    rw [round]
    split
    · rename_i i hgather
      rw [hcalls, hgather]
      rfl
    · rename_i replies hgather
      rw [hgather] at hcalls
      rw [hcalls]
      rfl
  have hchoices : (table.choices A).length = table.fleet.size := length_choices
  have hsteps := Fleet.verdict_step (E := E) hchoices
  simp only [fleet, choices, List.zipWith_map, List.zipWith_self] at hsteps
  -- a play is an advance whose transition is summed up at its seat
  have hsummed : (table.seats.map fun seat => verdict (seat.play E A table.fleet.stride)) =
      List.zipWith (fun seat call => call.map (Except.map seat.ended)) table.seats
        (table.seats.map fun seat =>
          verdict (Fleet.advance E table.fleet.stride seat.env (seat.choice A))) := by
    rw [List.zipWith_map_right, List.zipWith_self]
    exact List.map_congr_left fun seat _ => Seat.verdict_play _ seat
  rw [hplays, hsummed, collect_zipWith _ (by simp)]
  refine Eq.trans ?_ (congrArg (Except.map (Except.map table.ended)) hsteps).symm
  cases hanswers : collect (table.seats.map fun seat =>
      verdict (Fleet.advance E table.fleet.stride seat.env (seat.choice A))) with
  | error cause =>
    simp only [fleet] at hanswers
    rw [hanswers]
    rfl
  | ok answers =>
    have hlength : table.seats.length = answers.length := by
      simpa using congrArg List.length (collect_eq_ok_iff.1 hanswers)
    simp only [fleet] at hanswers
    simp only [hanswers, Except.map, collect_zipWith _ hlength]
    cases collect answers <;> rfl

theorem sums_of_step (h : verdict (table.fleet.step E (table.choices A)) = .ok (.ok transitions)) :
    List.Forall₂ Sums (table.ended transitions) (transitions.filter (·.terminated)) := by
  refine Seat.sums_of_length ?_
  simpa [fleet, Fleet.size] using Fleet.length_of_step length_choices h

theorem answer_of_round {reply : Reply (Table σ α) (Except Failure (List Summary))}
    (h : table.round E A = .ok reply)
    (hstep : verdict (table.fleet.step E (table.choices A)) = .ok (.ok transitions)) :
    reply.answer = .ok (table.ended transitions) := by
  have hverdict := verdict_round (E := E) (A := A) table
  rw [h, hstep] at hverdict
  exact Except.ok.inj hverdict

theorem step_of_round {reply : Reply (Table σ α) (Except Failure (List Summary))}
    {summaries : List Summary} (h : table.round E A = .ok reply)
    (ha : reply.answer = .ok summaries) :
    ∃ transitions, verdict (table.fleet.step E (table.choices A)) = .ok (.ok transitions) ∧
      table.ended transitions = summaries := by
  have hverdict := verdict_round (E := E) (A := A) table
  rw [h, verdict, ha] at hverdict
  obtain ⟨answer, hstep, hanswer⟩ := map_eq_ok_iff.1 hverdict.symm
  obtain ⟨transitions, rfl, hended⟩ := map_eq_ok_iff.1 hanswer
  exact ⟨transitions, hstep, hended⟩

end Table

namespace Rollout

/-- Rounds that are played while episodes are wanted: the transitions of each, the summaries of all
the episodes they terminate, how many are still wanted, and the table as they leave it. -/
inductive Rounds : Nat → Table σ α → List (List Transition) → List Summary → Nat → Table σ α → Prop
  | start (wanted : Nat) (table : Table σ α) : Rounds wanted table [] [] wanted table
  | round {wanted left : Nat} {table last : Table σ α}
      {reply : Reply (Table σ α) (Except Failure (List Summary))} {transitions : List Transition}
      {rounds : List (List Transition)} {done : List Summary} (hwanted : 0 < wanted)
      (hround : table.round E A = .ok reply)
      (hstep : verdict (table.fleet.step E (table.choices A)) = .ok (.ok transitions))
      (later : Rounds (wanted - (table.ended transitions).length) reply.state rounds done left
        last) :
      Rounds wanted table (transitions :: rounds) (table.ended transitions ++ done) left last

/-- What comes of rounds: the episodes that were wanted, or the failure or the interruption of the
next step when some are still wanted. -/
inductive Halt (wanted : Nat) (done : List Summary) (left : Nat) (last : Table σ α) :
    Except Overflow (Except Failure (List Summary)) → Prop
  | filled (hleft : left = 0) : Halt wanted done left last (.ok (.ok (done.take wanted)))
  | failed {failure : Failure} (hleft : 0 < left)
      (hstep : verdict (last.fleet.step E (last.choices A)) = .ok (.error failure)) :
      Halt wanted done left last (.ok (.error failure))
  | interrupted {cause : Overflow} (hleft : 0 < left)
      (hstep : verdict (last.fleet.step E (last.choices A)) = .error cause) :
      Halt wanted done left last (.error cause)

variable {E A} {wanted left : Nat} {table last : Table σ α} {done ended : List Summary}
  {result : Except Overflow (Except Failure (List Summary))}

theorem Halt.after (h : Halt E A (wanted - ended.length) done left last result) :
    Halt E A wanted (ended ++ done) left last
      (result.map (Except.map (ended.take wanted ++ ·))) := by
  cases h with
  | filled hleft =>
    simp only [Except.map, ← List.take_append]
    exact .filled hleft
  | failed hleft hstep => exact .failed hleft hstep
  | interrupted hleft hstep => exact .interrupted hleft hstep

theorem Halt.of_ok {kept : List Summary} (h : Halt E A wanted done left last result)
    (hkept : result = .ok (.ok kept)) : left = 0 ∧ kept = done.take wanted := by
  cases h with
  | filled hleft =>
    cases hkept
    exact ⟨hleft, rfl⟩
  | failed | interrupted => cases hkept

theorem rounds_of_playRounds (colours : Bool) (wanted : Nat) (table : Table σ α) :
    ∃ rounds done left last, Rounds E A wanted table rounds done left last ∧
      Halt E A wanted done left last (verdict (playRounds E A colours wanted table)) := by
  fun_induction playRounds E A colours wanted table with
  | case1 table => exact ⟨[], [], 0, table, .start 0 table, .filled rfl⟩
  | case2 wanted table hwanted i hround =>
    have hverdict := Table.verdict_round (E := E) (A := A) table
    rw [hround] at hverdict
    exact ⟨[], [], wanted, table, .start wanted table,
      .interrupted (Nat.pos_of_ne_zero hwanted) (map_eq_error_iff.1 hverdict.symm)⟩
  | case3 wanted table hwanted reply hround failure hanswer =>
    have hverdict := Table.verdict_round (E := E) (A := A) table
    rw [hround, verdict, hanswer] at hverdict
    obtain ⟨answer, hstep, hfailed⟩ := map_eq_ok_iff.1 hverdict.symm
    obtain rfl := map_eq_error_iff.1 hfailed
    exact ⟨[], [], wanted, table, .start wanted table,
      .failed (Nat.pos_of_ne_zero hwanted) hstep⟩
  | case4 wanted table hwanted reply hround ended hanswer _ said _ hlater ih
  | case5 wanted table hwanted reply hround ended hanswer _ said _ hlater ih =>
    obtain ⟨transitions, hstep, rfl⟩ := Table.step_of_round hround hanswer
    obtain ⟨rounds, done, left, last, hrounds, hhalt⟩ := ih
    rw [hlater] at hhalt
    exact ⟨transitions :: rounds, _, left, last,
      .round (Nat.pos_of_ne_zero hwanted) hround hstep hrounds, hhalt.after⟩

/-- Whatever comes of a batch: the reset fails, there is no room for the summaries, or the table is
played. -/
theorem verdict_batch (colours : Bool) {fleet : Fleet σ} {agents : List α} (episodes : Nat)
    (hagents : agents.length = fleet.size) :
    let opened := fleet.reset E
    let result := verdict (batch E A colours fleet agents episodes)
    (∃ failure, opened.answer = .error failure ∧ result = .ok (.error failure)) ∨
    ∃ views, opened.answer = .ok views ∧
      (Summary.maxKept < episodes ∧ result = .error .capacity ∨
        ∃ table, Table.seats table = List.zipWith seat opened.state.envs (agents.zip views) ∧
          result = verdict (playRounds E A colours episodes table)) := by
  intro opened result
  simp only [result]
  rw [batch, dif_pos hagents]
  dsimp only
  split
  · rename_i failure hfailure
    exact Or.inl ⟨failure, hfailure, rfl⟩
  · rename_i views hviews
    refine Or.inr ⟨views, hviews, ?_⟩
    by_cases hmany : Summary.maxKept < episodes
    · rw [if_pos hmany]
      exact Or.inl ⟨hmany, rfl⟩
    · rw [if_neg hmany]
      generalize_proofs hne
      refine Or.inr ⟨⟨_, hne⟩, rfl, ?_⟩
      cases playRounds E A colours episodes ⟨_, hne⟩ <;> rfl

namespace Rounds
variable {rounds : List (List Transition)}

theorem left_eq (h : Rounds E A wanted table rounds done left last) :
    left = wanted - done.length := by
  induction h with
  | start => rfl
  | round _ _ _ _ ih =>
    rw [ih, List.length_append]
    omega

theorem sums (h : Rounds E A wanted table rounds done left last) :
    List.Forall₂ Sums done (rounds.flatten.filter (·.terminated)) := by
  induction h with
  | start => exact .nil
  | round _ _ hstep _ ih =>
    rw [List.flatten_cons, List.filter_append]
    exact List.rel_append (Table.sums_of_step hstep) ih

end Rounds

end Rollout
end BlindArena
