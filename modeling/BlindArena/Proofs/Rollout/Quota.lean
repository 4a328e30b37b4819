import BlindArena.Proofs.Rollout.Batch
import BlindArena.Proofs.Rollout.Course
import BlindArena.Proofs.Rollout.Passes
import Mathlib.Algebra.BigOperators.Group.List.Basic
import Mathlib.Algebra.Order.Floor.Div

/-!
# A batch fills its quota in time

An episode takes at most as many steps as the budget allows, and one at least, and the next one
begins at once. So a seat ends an episode at least once in so many rounds, whatever the others do,
and a table with several seats ends that many more.
-/

namespace BlindArena
variable {σ α : Type} {E : Engine σ} {A : Agent α}

namespace Seat

/-- The seat is in an episode with this budget, and has counted its steps. -/
structure Timed (budget : Nat) (seat : Seat σ α) : Prop where
  settings : seat.env.config.budget = budget
  counted : seat.running.steps = seat.env.tracker.steps
  within : seat.env.tracker.steps < max 1 budget

/-- The episodes that end at a seat in so many rounds at the least. -/
def due (budget rounds : Nat) (seat : Seat σ α) : Nat :=
  (rounds + seat.env.tracker.steps) / max 1 budget

variable {budget : Nat} {stride : UInt64} {seat : Seat σ α}
  {reply : Reply (Seat σ α) (Except Failure (Option Summary))}

theorem Timed.of_reset {env : Env σ} {agent : α} {view : View} {seed : UInt64}
    (h : env.config.budget = budget) (hopening : (env.reset E (some seed)).answer = .ok view) :
    let opened := (env.reset E (some seed)).state
    (⟨opened, agent, view, { seed := opened.seed }⟩ : Seat σ α).Timed budget := by
  intro opened
  have hfresh : opened.tracker.steps = 0 := Env.steps_of_reset hopening
  refine ⟨?_, hfresh.symm, ?_⟩
  · simp only [opened, Env.config_reset, h]
  · show opened.tracker.steps < max 1 budget
    omega

theorem Timed.play_none (h : seat.Timed budget) (hplay : seat.play E A stride = .ok reply)
    (ha : reply.answer = .ok none) :
    reply.state.Timed budget ∧
      ∀ rounds, seat.due budget (rounds + 1) = reply.state.due budget rounds := by
  obtain ⟨stepped, transition, hstep, htransition, hgoes, hstate⟩ := play_none_elim hplay ha
  have hsteps := Env.steps_of_step hstep htransition
  have hconfig := Env.config_of_step hstep htransition
  have hlt := Env.steps_lt_of_step hstep htransition hgoes
  rw [h.settings] at hlt
  rw [hstate]
  refine ⟨⟨hconfig ▸ h.settings, ?_, ?_⟩, fun rounds => ?_⟩
  · have hone : (seat.running.absorb transition).steps = seat.running.steps + 1 := rfl
    rw [hone, hsteps, h.counted]
  · dsimp only
    omega
  · rw [due, due, hsteps]
    congr 1
    omega

theorem Timed.play_some (h : seat.Timed budget) {ended : Summary}
    (hplay : seat.play E A stride = .ok reply) (ha : reply.answer = .ok (some ended)) :
    reply.state.Timed budget ∧
      (∀ rounds, seat.due budget (rounds + 1) ≤ reply.state.due budget rounds + 1) ∧
      ended.isDone = true ∧ 1 ≤ ended.steps ∧ ended.steps ≤ max 1 budget := by
  obtain ⟨stepped, transition, opening, hstep, htransition, hends, rfl, hopening, hstate⟩ :=
    play_some_elim hplay ha
  have hconfig := Env.config_of_step hstep htransition
  have hlt := h.within
  have hfresh : reply.state.Timed budget := by
    rw [hstate]
    exact Timed.of_reset (hconfig ▸ h.settings) hopening
  have hone : (seat.running.absorb transition).steps = seat.env.tracker.steps + 1 := by
    rw [← h.counted]
    rfl
  refine ⟨hfresh, fun rounds => ?_, hends, by omega, by omega⟩
  -- the next episode has all its steps before it, so at most one ending falls due
  calc seat.due budget (rounds + 1)
      ≤ (rounds + max 1 budget) / max 1 budget := Nat.div_le_div_right (by omega)
    _ = rounds / max 1 budget + 1 := Nat.add_div_right rounds (by omega)
    _ ≤ reply.state.due budget rounds + 1 :=
      Nat.succ_le_succ (Nat.div_le_div_right (Nat.le_add_right _ _))

end Seat

/-- The summary of an episode that has ended, after at least one step and within the budget. -/
def Summary.EndedWithin (budget : Nat) (s : Summary) : Prop :=
  s.isDone = true ∧ 1 ≤ s.steps ∧ s.steps ≤ max 1 budget

namespace Seat
variable {budget : Nat} {stride : UInt64}

theorem timed_of_plays {seats : List (Seat σ α)}
    {replies : List (Reply (Seat σ α) (Except Failure (Option Summary)))}
    {ends : List (Option Summary)} (htimed : ∀ seat ∈ seats, seat.Timed budget)
    (h : seats.map (play E A stride) = replies.map .ok)
    (ha : replies.map (·.answer) = ends.map .ok) :
    (∀ reply ∈ replies, reply.state.Timed budget) ∧
    (∀ rounds, (seats.map (due budget (rounds + 1))).sum ≤
      (replies.map (·.state.due budget rounds)).sum + (ends.filterMap id).length) ∧
    ∀ s ∈ ends.filterMap id, s.EndedWithin budget := by
  induction seats generalizing replies ends with
  | nil => cases replies <;> cases ends <;> simp_all
  | cons seat seats ih =>
    match replies, ends, h, ha with
    | reply :: replies, now :: ends, h, ha =>
      rw [List.forall_mem_cons] at htimed
      simp only [List.map_cons, List.cons.injEq] at h ha
      obtain ⟨hrest, hdue, hends⟩ := ih htimed.2 h.2 ha.2
      cases now with
      | none =>
        obtain ⟨hreply, hfirst⟩ := htimed.1.play_none h.1 ha.1
        refine ⟨List.forall_mem_cons.2 ⟨hreply, hrest⟩, fun rounds => ?_, by simpa using hends⟩
        have hlater := hdue rounds
        have hnow := hfirst rounds
        rw [List.filterMap_cons_none rfl]
        simp only [List.map_cons, List.sum_cons]
        omega
      | some s =>
        obtain ⟨hreply, hfirst, hs⟩ := htimed.1.play_some h.1 ha.1
        refine ⟨List.forall_mem_cons.2 ⟨hreply, hrest⟩, fun rounds => ?_, ?_⟩
        · have hlater := hdue rounds
          have hnow := hfirst rounds
          rw [List.filterMap_cons_some (f := id) rfl]
          simp only [List.map_cons, List.sum_cons, List.length_cons]
          omega
        · exact List.forall_mem_cons.2 ⟨hs, hends⟩

end Seat

namespace Table

def Timed (budget : Nat) (table : Table σ α) : Prop := ∀ seat ∈ table.seats, seat.Timed budget

/-- The episodes that end at a table in so many rounds at the least. -/
def due (budget rounds : Nat) (table : Table σ α) : Nat :=
  (table.seats.map (Seat.due budget rounds)).sum

variable {budget : Nat} {table : Table σ α}
  {reply : Reply (Table σ α) (Except Failure (List Summary))} {ended : List Summary}

theorem Timed.round (h : table.Timed budget) (hround : table.round E A = .ok reply)
    (ha : reply.answer = .ok ended) :
    reply.state.Timed budget ∧
    (∀ rounds, table.due budget (rounds + 1) ≤ reply.state.due budget rounds + ended.length) ∧
    ∀ s ∈ ended, s.EndedWithin budget := by
  unfold Table.round at hround
  split at hround
  · cases hround
  · rename_i replies hreplies
    cases hround
    cases hends : collect (replies.map (·.answer)) with
    | error failure => simp [hends, Except.map] at ha
    | ok ends =>
      simp only [hends, Except.map, Except.ok.injEq] at ha
      subst ha
      obtain ⟨hstates, hdue, hended⟩ :=
        Seat.timed_of_plays h (gather_eq_ok_iff.1 hreplies) (collect_eq_ok_iff.1 hends)
      refine ⟨List.forall_mem_map.2 hstates, ?_, hended⟩
      simpa [due, Function.comp_def] using hdue

theorem Timed.due_zero (h : table.Timed budget) : table.due budget 0 = 0 := by
  have hnone : ∀ seat ∈ table.seats, seat.due budget 0 = 0 := by
    intro seat hseat
    rw [Seat.due, Nat.zero_add, Nat.div_eq_of_lt (h seat hseat).within]
  rw [due, List.map_congr_left hnone, List.map_const', List.sum_replicate, smul_zero]

theorem due_of_fresh (h : ∀ seat ∈ table.seats, seat.env.tracker.steps = 0) {rounds : Nat} :
    table.due budget rounds = table.seats.length * (rounds / max 1 budget) := by
  have hall : ∀ seat ∈ table.seats, seat.due budget rounds = rounds / max 1 budget := by
    intro seat hseat
    rw [Seat.due, h seat hseat, Nat.add_zero]
  rw [due, List.map_congr_left hall, List.map_const', List.sum_replicate, smul_eq_mul]

end Table

namespace Rollout
variable {budget wanted left : Nat} {table last : Table σ α} {rounds : List (List Transition)}
  {done : List Summary}

namespace Rounds

theorem endedWithin (h : Rounds E A wanted table rounds done left last)
    (htimed : table.Timed budget) : ∀ s ∈ done, s.EndedWithin budget := by
  induction h with
  | start => simp
  | round _ hround hstep _ ih =>
    obtain ⟨hnext, -, hended⟩ := htimed.round hround (Table.answer_of_round hround hstep)
    intro s hs
    rcases List.mem_append.1 hs with hs | hs
    · exact hended s hs
    · exact ih hnext s hs

theorem due_lt (h : Rounds E A wanted table rounds done left last) (htimed : table.Timed budget)
    {played : Nat} (hplayed : played < rounds.length ∨ played = rounds.length ∧ 0 < left) :
    table.due budget played < wanted := by
  induction h generalizing played with
  | start wanted table =>
    obtain ⟨rfl, hwanted⟩ : played = 0 ∧ 0 < wanted := by simpa using hplayed
    rwa [htimed.due_zero]
  | round hwanted hround hstep _ ih =>
    obtain ⟨hnext, hdue, -⟩ := htimed.round hround (Table.answer_of_round hround hstep)
    cases played with
    | zero => rwa [htimed.due_zero]
    | succ played =>
      rw [List.length_cons] at hplayed
      have hlater :=
        ih hnext (hplayed.imp Nat.lt_of_succ_lt_succ (And.imp_left Nat.succ.inj))
      -- what the round ends is taken from what is due and from what is wanted alike
      have hnow := hdue played
      omega

theorem length_le (h : Rounds E A wanted table rounds done left last) (htimed : table.Timed budget)
    (hfresh : ∀ seat ∈ table.seats, seat.env.tracker.steps = 0) :
    rounds.length + (if left = 0 then 0 else 1) ≤
      max 1 budget * (wanted ⌈/⌉ table.seats.length) := by
  cases hplayed : rounds.length + (if left = 0 then 0 else 1) with
  | zero => exact Nat.zero_le _
  | succ played =>
    -- another round was played after these, so they did not fill the quota
    have hdue : table.due budget played < wanted := by
      refine h.due_lt htimed ?_
      split at hplayed <;> omega
    have hseats : 0 < table.seats.length := List.length_pos_iff.2 table.seats_ne_nil
    rw [Table.due_of_fresh hfresh] at hdue
    have hturns : played / max 1 budget < wanted ⌈/⌉ table.seats.length :=
      (lt_iff_lt_of_le_iff_le (ceilDiv_le_iff_le_mul hseats)).2 hdue
    rw [Nat.div_lt_iff_lt_mul (by omega), Nat.mul_comm] at hturns
    exact hturns

end Rounds

section opening
variable {fleet : Fleet σ} {agents : List α} {views : List View} {episodes : Nat}
  (hagents : agents.length = fleet.size) (hviews : (fleet.reset E).answer = .ok views)
  (hseats : table.seats = List.zipWith seat (fleet.reset E).state.envs (agents.zip views))

include hagents hviews hseats in
theorem timed_opening (hbudget : ∀ env ∈ fleet.envs, env.config.budget = budget) :
    table.Timed budget ∧ ∀ seat ∈ table.seats, seat.env.tracker.steps = 0 := by
  rw [Table.Timed, ← forall₂_and]
  intro s hs
  obtain ⟨env, agent, view, henv, hreset, rfl⟩ := seat_of_opening hagents hviews hseats hs
  exact ⟨Seat.Timed.of_reset (hbudget env henv) hreset, Env.steps_of_reset hreset⟩

end opening

/-- A batch always ends. It fails in a reset or in a step, it is interrupted in a step or finds no
room, or it fills its quota with episodes that have ended within the budget. No more rounds are
played than it takes if every episode goes on for as long as it can. All that end are counted. -/
theorem batch_ends (colours : Bool) {fleet : Fleet σ} {agents : List α} (episodes : Nat)
    (hagents : agents.length = fleet.size)
    (hbudget : ∀ env ∈ fleet.envs, env.config.budget = budget) :
    let opened := fleet.reset E
    let result := verdict (batch E A colours fleet agents episodes)
    (∃ failure, opened.answer = .error failure ∧ result = .ok (.error failure)) ∨
    ∃ views, opened.answer = .ok views ∧
      (Summary.maxKept < episodes ∧ result = .error .capacity ∨
        ∃ table rounds done left last,
          Table.seats table = List.zipWith seat opened.state.envs (agents.zip views) ∧
          Rounds E A episodes table rounds done left last ∧
          rounds.length + (if left = 0 then 0 else 1) ≤
            max 1 budget * (episodes ⌈/⌉ fleet.size) ∧
          List.Forall₂ Sums done (rounds.flatten.filter (·.terminated)) ∧
          (∀ s ∈ done, s.EndedWithin budget) ∧
          Halt E A episodes done left last result ∧
          ∀ kept, result = .ok (.ok kept) →
            kept = done.take episodes ∧ kept.length = episodes) := by
  intro opened result
  rcases verdict_batch (E := E) (A := A) colours episodes hagents with
    hfailed | ⟨views, hviews, hfull | ⟨table, hseats, hplayed⟩⟩
  · exact Or.inl hfailed
  · exact Or.inr ⟨views, hviews, Or.inl hfull⟩
  · obtain ⟨rounds, done, left, last, hrounds, hhalt⟩ :=
      rounds_of_playRounds (E := E) (A := A) colours episodes table
    rw [← hplayed] at hhalt
    obtain ⟨htimed, hfresh⟩ := timed_opening hagents hviews hseats hbudget
    have hlength := hrounds.length_le htimed hfresh
    rw [size_opening hagents hviews hseats] at hlength
    refine Or.inr ⟨views, hviews, Or.inr ⟨table, rounds, done, left, last, hseats, hrounds, hlength,
      hrounds.sums, hrounds.endedWithin htimed, hhalt, fun kept hkept => ?_⟩⟩
    have hleft := hrounds.left_eq
    obtain ⟨hnone, rfl⟩ := hhalt.of_ok hkept
    refine ⟨rfl, ?_⟩
    rw [List.length_take]
    omega

theorem batch_ends_of_lasting :
    ∃ fleet kept, ∃ table last : Table Nat Player, ∃ rounds done,
      (Fleet.make lasting.engine 2 (Config.seeded { budget := 2 } 7) 0).1 = .ok fleet ∧
      verdict (batch lasting.engine Player.agent false fleet [.first, .first] 1) =
        .ok (.ok kept) ∧
      Rounds lasting.engine Player.agent 1 table rounds done 0 last ∧ rounds.length ≤ 2 ∧
      kept = done.take 1 ∧ kept.length = 1 ∧ ∀ s ∈ kept, s.EndedWithin 2 := by
  obtain ⟨fleet, views, table, once, twice, ended, hmake, hagents, hviews, hseats, honce, hgoes,
      htwice, hends, hlength⟩ :
      ∃ fleet views, ∃ table : Table Nat Player, ∃ once twice, ∃ ended : List Summary,
        (Fleet.make lasting.engine 2 (Config.seeded { budget := 2 } 7) 0).1 = .ok fleet ∧
        [Player.first, .first].length = fleet.size ∧
        (fleet.reset lasting.engine).answer = .ok views ∧
        table.seats = List.zipWith seat (fleet.reset lasting.engine).state.envs
          ([Player.first, .first].zip views) ∧
        table.round lasting.engine Player.agent = .ok once ∧ once.answer = .ok [] ∧
        once.state.round lasting.engine Player.agent = .ok twice ∧ twice.answer = .ok ended ∧
        ended.length = 2 :=
    ⟨_, _, ⟨[_, _], by simp⟩, _, _, _, rfl, rfl, rfl, rfl, rfl, rfl, rfl, rfl, rfl⟩
  obtain ⟨later, hlater, hrest⟩ : ∃ later,
      playRounds lasting.engine Player.agent false 1 once.state = .ok later ∧
        later.answer = .ok (ended.take 1 ++ []) :=
    playRounds_of_round (by omega) htwice hends (by rw [hlength, playRounds]; rfl) rfl
  obtain ⟨reply, hreply, hdone⟩ : ∃ reply,
      playRounds lasting.engine Player.agent false 1 table = .ok reply ∧
        reply.answer = .ok (List.take 1 [] ++ (ended.take 1 ++ [])) :=
    playRounds_of_round (by omega) honce hgoes hlater hrest
  obtain ⟨played, hbatch, hanswer⟩ :=
    batch_of_playRounds hagents hviews hseats (by decide) hreply
  have hkept : verdict (batch lasting.engine Player.agent false fleet [.first, .first] 1) =
      .ok (.ok (ended.take 1)) := by
    rw [hbatch, verdict, hanswer, hdone, List.take_nil, List.nil_append, List.append_nil]
  rcases batch_ends (E := lasting.engine) (A := Player.agent) false 1 hagents
    (Fleet.budget_of_make hmake) with
    ⟨failure, hfailure, -⟩ | ⟨-, -, ⟨hmany, -⟩ |
      ⟨table, rounds, done, left, last, -, hrounds, hfew, -, hwithin, hhalt, hquota⟩⟩
  · rw [hfailure] at hviews
    cases hviews
  · exact absurd hmany (by decide)
  · obtain ⟨hdone, hcount⟩ := hquota _ hkept
    obtain ⟨rfl, -⟩ := hhalt.of_ok hkept
    have hbound : max 1 2 * (1 ⌈/⌉ fleet.size) = 2 := by rw [← hagents]; rfl
    exact ⟨fleet, _, table, last, rounds, done, hmake, hkept, hrounds, hbound ▸ hfew, hdone, hcount,
      fun s hs => hwithin s (List.mem_of_mem_take (hdone ▸ hs))⟩

end Rollout
end BlindArena
