import BlindArena.Env.Fleet
import BlindArena.Rollout.Episode

/-!
# Batches

The environments of a fleet are seated at a table, each with an agent of its own, and played round
by round until enough episodes have ended. Summaries are kept in the order the episodes end, those
of one round by seat. In every round either an episode ends or every environment comes closer to its
budget, so enough of them do end.

A round reaches every seat. One that fails can also go as any failing step of the fleet
(`Proofs/Rollout/Ways`), and ends the batch in either case.
-/

namespace BlindArena

/-- An environment with its agent, the view the agent sees next, and the totals of the present
episode. -/
structure Seat (σ α : Type) where
  env : Env σ
  agent : α
  view : View
  running : Summary

structure Table (σ α : Type) where
  seats : List (Seat σ α)
  seats_ne_nil : seats ≠ []

namespace Seat
variable {σ α : Type} (E : Engine σ) (A : Agent α)

/-- One step; its answer is the summary of the episode if that ends. -/
def play (stride : UInt64) (seat : Seat σ α) :
    Except Interruption (Reply (Seat σ α) (Except Failure (Option Summary))) :=
  let choice := A.act seat.agent seat.view
  (Fleet.advance E stride seat.env choice.1).map fun reply =>
    let seat := { seat with env := reply.state, agent := choice.2 }
    match reply.answer with
    | .error failure => ⟨.error failure, seat, reply.transcript⟩
    | .ok transition =>
      let total := seat.running.absorb transition
      let seat := { seat with view := transition.view }
      if transition.terminated then
        ⟨.ok (some total), { seat with running := { seed := reply.state.seed } },
          reply.transcript⟩
      else ⟨.ok none, { seat with running := total }, reply.transcript⟩

variable {E A}

variable {stride : UInt64} {seat : Seat σ α}
  {reply : Reply (Seat σ α) (Except Failure (Option Summary))}

/-- A step of a seat that succeeds is one of its environment, with a reset if it ends the
episode. -/
theorem play_ok_elim {ended : Option Summary} (h : seat.play E A stride = .ok reply)
    (ha : reply.answer = .ok ended) :
    ∃ stepped transition, seat.env.step E (A.act seat.agent seat.view).1 = .ok stepped ∧
      stepped.answer = .ok transition ∧
      let agent := (A.act seat.agent seat.view).2
      let total := seat.running.absorb transition
      if transition.terminated then
        ∃ opening, let renewed := stepped.state.reset E (some (stepped.state.seed + stride))
          renewed.answer = .ok opening ∧ ended = some total ∧
          reply.state = ⟨renewed.state, agent, opening, { seed := renewed.state.seed }⟩
      else
        ended = none ∧ reply.state = ⟨stepped.state, agent, transition.view, total⟩ := by
  unfold play at h
  cases hadvance : Fleet.advance E stride seat.env (A.act seat.agent seat.view).1 with
  | error i => simp [hadvance, Except.map] at h
  | ok advanced =>
    simp only [hadvance, Except.map, Except.ok.injEq] at h
    subst h
    cases hans : advanced.answer with
    | error failure => simp [hans] at ha
    | ok made =>
      obtain ⟨stepped, transition, hstep, htransition, hrest⟩ :=
        Fleet.advance_ok_elim hadvance hans
      refine ⟨stepped, transition, hstep, htransition, ?_⟩
      cases hgoes : transition.terminated with
      | true =>
        rw [hgoes, if_pos rfl] at hrest
        obtain ⟨opening, hopening, rfl, hstate⟩ := hrest
        have hmade : (transition.renewed opening).terminated = true := hgoes
        simp only [hans, hmade, if_true, Except.ok.injEq] at ha ⊢
        rw [← ha, hstate, Summary.absorb_renewed (Env.terminal_of_step hstep htransition)]
        exact ⟨opening, hopening, rfl, rfl⟩
      | false =>
        rw [hgoes, if_neg (by simp)] at hrest
        obtain ⟨rfl, hstate⟩ := hrest
        simp only [hans, hgoes, Bool.false_eq_true, if_false, Except.ok.injEq] at ha ⊢
        exact ⟨ha.symm, by rw [hstate]⟩

theorem play_none_elim (h : seat.play E A stride = .ok reply) (ha : reply.answer = .ok none) :
    ∃ stepped transition, seat.env.step E (A.act seat.agent seat.view).1 = .ok stepped ∧
      stepped.answer = .ok transition ∧ transition.terminated = false ∧
      reply.state = ⟨stepped.state, (A.act seat.agent seat.view).2, transition.view,
        seat.running.absorb transition⟩ := by
  obtain ⟨stepped, transition, hstep, htransition, hplay⟩ := play_ok_elim h ha
  cases hgoes : transition.terminated with
  | true =>
    simp only [hgoes, if_true] at hplay
    obtain ⟨opening, -, hnone, -⟩ := hplay
    cases hnone
  | false =>
    simp only [hgoes, Bool.false_eq_true, if_false, true_and] at hplay
    exact ⟨stepped, transition, hstep, htransition, hgoes, hplay⟩

theorem play_some_elim {ended : Summary} (h : seat.play E A stride = .ok reply)
    (ha : reply.answer = .ok (some ended)) :
    ∃ stepped transition opening, seat.env.step E (A.act seat.agent seat.view).1 = .ok stepped ∧
      stepped.answer = .ok transition ∧ transition.terminated = true ∧
      ended = seat.running.absorb transition ∧
      let renewed := stepped.state.reset E (some (stepped.state.seed + stride))
      renewed.answer = .ok opening ∧
      reply.state = ⟨renewed.state, (A.act seat.agent seat.view).2, opening,
        { seed := renewed.state.seed }⟩ := by
  obtain ⟨stepped, transition, hstep, htransition, hplay⟩ := play_ok_elim h ha
  cases hends : transition.terminated with
  | true =>
    simp only [hends, if_true, Option.some.injEq] at hplay
    obtain ⟨opening, hopening, hended, hstate⟩ := hplay
    exact ⟨stepped, transition, opening, hstep, htransition, hends, hended, hopening, hstate⟩
  | false =>
    simp only [hends, Bool.false_eq_true, if_false] at hplay
    cases hplay.1

theorem remaining_of_play (h : seat.play E A stride = .ok reply) (ha : reply.answer = .ok none) :
    reply.state.env.remaining + 1 = seat.env.remaining := by
  obtain ⟨stepped, transition, hstep, htransition, hgoes, hstate⟩ := play_none_elim h ha
  rw [hstate]
  exact Env.remaining_of_step hstep htransition hgoes

def remaining : List (Seat σ α) → Nat
  | [] => 0
  | seat :: seats => seat.env.remaining + remaining seats

end Seat

namespace Table
variable {σ α : Type} (E : Engine σ) (A : Agent α)

def fleet (table : Table σ α) : Fleet σ :=
  ⟨table.seats.map (·.env), by simpa using table.seats_ne_nil⟩

/-- The steps left in all the budgets together. -/
def remaining (table : Table σ α) : Nat := Seat.remaining table.seats

/-- Every seat plays one step; the answer is the summaries of the episodes that end. -/
def round (table : Table σ α) :
    Except Interruption (Reply (Table σ α) (Except Failure (List Summary))) :=
  match h : gather (table.seats.map (Seat.play E A table.fleet.stride)) with
  | .error i => .error i
  | .ok replies =>
    have : replies.length = table.seats.length := by
      simpa using (congrArg List.length (gather_eq_ok_iff.1 h)).symm
    .ok ⟨(collect (replies.map (·.answer))).map (·.filterMap id),
      ⟨replies.map (·.state), by
        have := List.length_pos_iff.2 table.seats_ne_nil
        rw [← List.length_pos_iff, List.length_map]
        omega⟩,
      replies.flatMap (·.transcript)⟩

variable {E A}

theorem remaining_of_plays {stride : UInt64} {seats : List (Seat σ α)}
    {replies : List (Reply (Seat σ α) (Except Failure (Option Summary)))}
    {ends : List (Option Summary)} (h : seats.map (Seat.play E A stride) = replies.map .ok)
    (ha : replies.map (·.answer) = ends.map .ok) (hnone : ends.filterMap id = []) :
    Seat.remaining (replies.map (·.state)) + seats.length = Seat.remaining seats := by
  induction seats generalizing replies ends with
  | nil => cases replies <;> simp_all
  | cons seat seats ih =>
    match replies, ends, h, ha with
    | reply :: replies, e :: ends, h, ha =>
      simp only [List.map_cons, List.cons.injEq] at h ha
      cases e with
      | some s => simp at hnone
      | none =>
        have hone := Seat.remaining_of_play h.1 ha.1
        have hrest := ih h.2 ha.2 (by simpa using hnone)
        simp only [List.map_cons, Seat.remaining, List.length_cons]
        omega

theorem remaining_of_round {table : Table σ α}
    {reply : Reply (Table σ α) (Except Failure (List Summary))}
    (h : table.round E A = .ok reply) (ha : reply.answer = .ok []) :
    reply.state.remaining < table.remaining := by
  unfold round at h
  split at h
  · cases h
  · rename_i replies hreplies
    cases h
    cases hends : collect (replies.map (·.answer)) with
    | error failure => simp [hends, Except.map] at ha
    | ok ends =>
      simp only [hends, Except.map, Except.ok.injEq] at ha
      have := remaining_of_plays (gather_eq_ok_iff.1 hreplies) (collect_eq_ok_iff.1 hends) ha
      have := List.length_pos_iff.2 table.seats_ne_nil
      simp only [remaining]
      omega

end Table

namespace Rollout
variable {σ α : Type} (E : Engine σ) (A : Agent α)

def endNotes (colours : Bool) (ended : List Summary) : Transcript :=
  ended.map fun s => Transcript.log .debug (s.display colours)

/-- Rounds are played until as many more episodes as wanted have ended. Of those that end in the
last round the first ones count. -/
def playRounds (colours : Bool) (wanted : Nat) (table : Table σ α) :
    Except Interruption (Reply (Table σ α) (Except Failure (List Summary))) :=
  if henough : wanted = 0 then .ok ⟨.ok [], table, []⟩
  else
    match h : table.round E A with
    | .error i => .error i
    | .ok reply =>
      match ha : reply.answer with
      | .error failure => .ok ⟨.error failure, reply.state, reply.transcript⟩
      | .ok ended =>
        have : Prod.Lex (· < ·) (· < ·) (wanted - ended.length, reply.state.remaining)
            (wanted, table.remaining) := by
          cases ended with
          | nil => exact Prod.Lex.right _ (Table.remaining_of_round h ha)
          | cons s rest =>
            apply Prod.Lex.left
            simp only [List.length_cons]
            omega
        let said := reply.transcript ++ endNotes colours ended
        match playRounds colours (wanted - ended.length) reply.state with
        | .error i => .error (i.after said)
        | .ok later =>
          .ok ⟨later.answer.map (ended.take wanted ++ ·), later.state, said ++ later.transcript⟩
termination_by (wanted, table.remaining)
decreasing_by exact this

/-- Each environment with its agent and its first view. -/
def seat (env : Env σ) (player : α × View) : Seat σ α where
  env := env
  agent := player.1
  view := player.2
  running := { seed := env.seed }

/-- A fleet is played until `episodes` episodes have ended. -/
def batch (colours : Bool) (fleet : Fleet σ) (agents : List α) (episodes : Nat) :
    Except Interruption (Reply (Fleet σ) (Except Failure (List Summary))) :=
  if hagents : agents.length = fleet.size then
    let opened := fleet.reset E
    match hviews : opened.answer with
    | .error failure => .ok ⟨.error failure, opened.state, opened.transcript⟩
    | .ok views =>
      if Summary.maxKept < episodes then .error ⟨.capacity, opened.transcript⟩
      else
        have henvs : opened.state.envs.length = fleet.size := Fleet.size_reset E fleet
        have hlength : views.length = fleet.size := Fleet.length_of_reset E hviews
        let table : Table σ α :=
          ⟨List.zipWith seat opened.state.envs (agents.zip views), by
            have := fleet.size_pos
            rw [← List.length_pos_iff, List.length_zipWith, List.length_zip, henvs, hlength,
              hagents]
            omega⟩
        match playRounds E A colours episodes table with
        | .error i => .error (i.after opened.transcript)
        | .ok played =>
          .ok ⟨played.answer, played.state.fleet, opened.transcript ++ played.transcript⟩
  else .ok ⟨.error (.agentCount fleet.size agents.length), fleet, []⟩

end Rollout

end BlindArena
