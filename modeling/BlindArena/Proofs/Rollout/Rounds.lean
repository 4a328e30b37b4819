import BlindArena.Proofs.Rollout.Merge
import BlindArena.Proofs.Rollout.Solo
import Mathlib.Data.Set.Insert

/-!
# Rounds complete what is ahead

At every moment of a batch it is settled which episodes are ahead at each seat and in which rounds
they end. A round completes those that end in it and leaves the others ahead, so what a batch
returns are the first of all that were ahead when it began.
-/

namespace BlindArena
open Completion
variable {σ α : Type} (E : Engine σ) (A : Agent α) (each : Transition → Transcript) (colours : Bool)

/-- The completions ahead at a seat in this place, after so many rounds. -/
def Seat.upcoming (stride : UInt64) (place clock : Nat) (seat : Seat σ α) : Set Completion :=
  {c | ∃ count, c ∈ schedule place (clock - seat.running.steps)
    (seat.rest E A each colours stride count)}

namespace Seat
variable {E A each colours} {stride : UInt64} {place clock : Nat} {seat : Seat σ α}
  {reply : Reply (Seat σ α) (Except Failure (Option Summary))} {c : Completion}

theorem lt_of_upcoming (hontime : seat.running.steps ≤ clock)
    (h : c ∈ seat.upcoming E A each colours stride place clock) :
    c.seat = place ∧ clock < c.round := by
  obtain ⟨count, hc⟩ := h
  refine ⟨(seat_of_schedule hc).1, ?_⟩
  cases hrest : seat.rest E A each colours stride count with
  | nil =>
    rw [hrest] at hc
    cases hc
  | cons next later =>
    have hlt := steps_lt_of_rest hrest
    rw [hrest] at hc
    rcases List.mem_cons.1 hc with rfl | hc
    · dsimp only
      omega
    · have := (seat_of_schedule hc).2
      omega

theorem upcoming_of_play (h : seat.play E A stride = .ok reply) (ha : reply.answer = .ok none) :
    reply.state.upcoming E A each colours stride place (clock + 1) =
      seat.upcoming E A each colours stride place clock := by
  simp only [upcoming, rest_of_play h ha, steps_of_play h ha, Nat.add_sub_add_right]

theorem upcoming_of_play_some {ended : Summary} (hontime : seat.running.steps ≤ clock)
    (h : seat.play E A stride = .ok reply) (ha : reply.answer = .ok (some ended)) :
    seat.upcoming E A each colours stride place clock =
      insert ⟨clock + 1, place, ended⟩
        (reply.state.upcoming E A each colours stride place (clock + 1)) := by
  obtain ⟨hsteps, hfresh⟩ := steps_of_play_some h ha
  have hround : clock - seat.running.steps + ended.steps = clock + 1 := by omega
  have hahead (count : Nat) :
      schedule place (clock - seat.running.steps)
          (seat.rest E A each colours stride (count + 1)) =
        ⟨clock + 1, place, ended⟩ :: schedule place (clock + 1 - reply.state.running.steps)
          (reply.state.rest E A each colours stride count) := by
    rw [rest_of_play_some h ha, schedule, hround, hfresh, Nat.sub_zero]
  ext c
  constructor
  · rintro ⟨count, hc⟩
    cases count with
    | zero => cases hc
    | succ count =>
      rw [hahead] at hc
      rcases List.mem_cons.1 hc with rfl | hc
      · exact Set.mem_insert _ _
      · exact Set.mem_insert_of_mem _ ⟨count, hc⟩
  · rintro (rfl | ⟨count, hc⟩)
    · exact ⟨1, by rw [hahead 0]; exact List.mem_cons_self⟩
    · exact ⟨count + 1, by rw [hahead]; exact List.mem_cons_of_mem _ hc⟩

end Seat

namespace Table

/-- No present episode has more steps than rounds have been played. -/
def OnTime (clock : Nat) (table : Table σ α) : Prop :=
  ∀ seat ∈ table.seats, seat.running.steps ≤ clock

/-- The completions ahead at all the seats after so many rounds. -/
def upcoming (clock : Nat) (table : Table σ α) : Set Completion :=
  {c | ∃ seat, table.seats[c.seat]? = some seat ∧
    c ∈ seat.upcoming E A each colours table.fleet.stride c.seat clock}

variable {E A each colours} {clock : Nat} {table : Table σ α}
  {reply : Reply (Table σ α) (Except Failure (List Summary))} {ended : List Summary}

theorem round_ok_elim (h : table.round E A = .ok reply) (ha : reply.answer = .ok ended) :
    ∃ ends : List (Option Summary), ended = ends.filterMap id ∧
      reply.state.fleet.stride = table.fleet.stride ∧
      ends.length = table.seats.length ∧ reply.state.seats.length = table.seats.length ∧
      ∀ (place : Nat) (seat : Seat σ α), table.seats[place]? = some seat →
        ∃ played now, seat.play E A table.fleet.stride = .ok played ∧ played.answer = .ok now ∧
          ends[place]? = some now ∧ reply.state.seats[place]? = some played.state := by
  unfold round at h
  split at h
  · cases h
  · rename_i replies hreplies
    cases h
    rw [gather_eq_ok_iff] at hreplies
    cases hends : collect (replies.map (·.answer)) with
    | error failure => simp [hends, Except.map] at ha
    | ok ends =>
      simp only [hends, Except.map, Except.ok.injEq] at ha
      rw [collect_eq_ok_iff] at hends
      have hlength : replies.length = table.seats.length := by
        simpa using (congrArg List.length hreplies).symm
      have hlength' : replies.length = ends.length := by simpa using congrArg List.length hends
      refine ⟨ends, ha.symm, ?_, by omega, by simpa using hlength, ?_⟩
      · simp [fleet, Fleet.stride, Fleet.size, hlength]
      · intro place seat hseat
        obtain ⟨played, hplayed, hplay⟩ := exists_getElem?_of_map_eq hreplies hseat
        obtain ⟨now, hnow, hanswer⟩ := exists_getElem?_of_map_eq hends hplayed
        exact ⟨played, now, hplay, hanswer, hnow, by simp [hplayed]⟩

theorem round_of_singleton (h : table.round E A = .ok reply) (ha : reply.answer = .ok ended)
    {seat : Seat σ α} (hseats : table.seats = [seat]) :
    ∃ now played, ended = Option.toList now ∧ seat.play E A 1 = .ok played ∧
      played.answer = .ok now ∧ reply.state.seats = [played.state] := by
  obtain ⟨ends, rfl, -, hends, hlength, hround⟩ := round_ok_elim h ha
  obtain ⟨played, now, hplay, hanswer, hnow, hstate⟩ := hround 0 seat (by rw [hseats]; rfl)
  have hstride : table.fleet.stride = 1 := by simp [fleet, Fleet.stride, Fleet.size, hseats]
  rw [hseats] at hends hlength
  obtain ⟨first, rfl⟩ := List.length_eq_one_iff.1 hends
  obtain ⟨after, hafter⟩ := List.length_eq_one_iff.1 hlength
  obtain rfl : first = now := by simpa using hnow
  obtain rfl : after = played.state := by simpa [hafter] using hstate
  exact ⟨first, played, by cases first <;> rfl, hstride ▸ hplay, hanswer, hafter⟩

theorem onTime_of_round (hontime : table.OnTime clock) (h : table.round E A = .ok reply)
    (ha : reply.answer = .ok ended) : reply.state.OnTime (clock + 1) := by
  obtain ⟨ends, -, -, -, hseats, hround⟩ := round_ok_elim h ha
  intro after hafter
  obtain ⟨place, hplace⟩ := List.mem_iff_getElem?.1 hafter
  obtain ⟨hlt, -⟩ := List.getElem?_eq_some_iff.1 hplace
  have hbefore := List.getElem?_eq_getElem (hseats ▸ hlt)
  obtain ⟨played, now, hplay, hanswer, -, hstate⟩ := hround place _ hbefore
  obtain rfl := Option.some.inj (hplace.symm.trans hstate)
  have hsteps := hontime _ (List.mem_of_getElem? hbefore)
  cases now with
  | none =>
    rw [Seat.steps_of_play hplay hanswer]
    omega
  | some s =>
    rw [(Seat.steps_of_play_some hplay hanswer).2]
    omega

theorem upcoming_of_round (hontime : table.OnTime clock) (h : table.round E A = .ok reply)
    (ha : reply.answer = .ok ended) :
    ∃ now : List Completion, ended = now.map (·.summary) ∧ now.Pairwise Before ∧
      (∀ c ∈ now, c.round = clock + 1) ∧
      table.upcoming E A each colours clock =
        {c | c ∈ now} ∪ reply.state.upcoming E A each colours (clock + 1) := by
  obtain ⟨ends, rfl, hstride, hends, hseats, hround⟩ := round_ok_elim h ha
  refine ⟨completions (clock + 1) ends, map_completions.symm, pairwise_completions,
    fun c hc => (mem_completions.1 hc).1, ?_⟩
  ext c
  simp only [upcoming, hstride, Set.mem_union, Set.mem_ofPred_eq, mem_completions]
  cases hseat : table.seats[c.seat]? with
  | none =>
    rw [List.getElem?_eq_none_iff] at hseat
    simp [List.getElem?_eq_none_iff.2 (hends.trans_le hseat),
      List.getElem?_eq_none_iff.2 (hseats.trans_le hseat)]
  | some seat =>
    obtain ⟨played, now, hplay, hanswer, hnow, hstate⟩ := hround _ _ hseat
    have hsteps := hontime seat (List.mem_of_getElem? hseat)
    cases now with
    | none => simp [hnow, hstate, Seat.upcoming_of_play hplay hanswer]
    | some s =>
      simp only [hnow, hstate, Option.some.injEq, exists_eq_left',
        Seat.upcoming_of_play_some hsteps hplay hanswer, Set.mem_insert_iff]
      obtain ⟨round, place, summary⟩ := c
      simp [eq_comm]

theorem lt_of_upcoming (hontime : table.OnTime clock) {c : Completion}
    (h : c ∈ table.upcoming E A each colours clock) : clock < c.round := by
  obtain ⟨seat, hseat, hc⟩ := h
  exact (Seat.lt_of_upcoming (hontime seat (List.mem_of_getElem? hseat)) hc).2

end Table

namespace Rollout
variable {E A each colours} {wanted : Nat} {table : Table σ α} {done : List Summary}
  {played : Reply (Table σ α) (Except Failure (List Summary))} {colours' : Bool}

/-- What holds when no more episodes are wanted, and before a round if it holds after it, holds of
every table that was played to the end. -/
theorem playRounds_rec {P : Nat → Table σ α → List Summary → Prop}
    (hzero : ∀ table, P 0 table [])
    (hround : ∀ wanted table reply ended later, 0 < wanted → Table.round E A table = .ok reply →
      reply.answer = .ok ended → P (wanted - ended.length) reply.state later →
      P wanted table (ended.take wanted ++ later))
    (h : playRounds E A colours wanted table = .ok played) (ha : played.answer = .ok done) :
    P wanted table done := by
  fun_induction playRounds E A colours wanted table generalizing played done with
  | case1 table =>
    cases h
    cases ha
    exact hzero table
  | case2 | case4 => cases h
  | case3 =>
    cases h
    cases ha
  | case5 wanted table hwanted reply hreply =>
    rename_i ended hended _ said later hlater ih
    cases h
    cases hdone : later.answer with
    | error failure => simp [hdone, Except.map] at ha
    | ok rest =>
      simp only [hdone, Except.map, Except.ok.injEq] at ha
      rw [← ha]
      exact hround wanted table reply ended rest (by omega) hreply hended (ih hlater hdone)

theorem playRounds_eq_of_round {reply later : Reply (Table σ α) (Except Failure (List Summary))}
    {ended : List Summary} (hwanted : wanted ≠ 0) (h : table.round E A = .ok reply)
    (ha : reply.answer = .ok ended)
    (hlater : playRounds E A colours (wanted - ended.length) reply.state = .ok later) :
    ∃ said, playRounds E A colours wanted table =
      .ok ⟨later.answer.map (ended.take wanted ++ ·), later.state, said⟩ := by
  rw [playRounds, dif_neg hwanted]
  split
  · rename_i hround
    rw [hround] at h
    cases h
  · rename_i reply' hround
    obtain rfl : reply' = reply := Except.ok.inj (hround.symm.trans h)
    split
    · rename_i hfailed
      rw [hfailed] at ha
      cases ha
    · rename_i ended' hended
      obtain rfl : ended' = ended := Except.ok.inj (hended.symm.trans ha)
      dsimp only
      split
      · rename_i hlater'
        rw [hlater'] at hlater
        cases hlater
      · rename_i later' hlater'
        obtain rfl : later' = later := Except.ok.inj (hlater'.symm.trans hlater)
        exact ⟨_, rfl⟩

theorem playRounds_of_round {reply later : Reply (Table σ α) (Except Failure (List Summary))}
    {ended rest : List Summary} (hwanted : 0 < wanted) (h : table.round E A = .ok reply)
    (ha : reply.answer = .ok ended)
    (hlater : playRounds E A colours (wanted - ended.length) reply.state = .ok later)
    (hrest : later.answer = .ok rest) :
    ∃ played, playRounds E A colours wanted table = .ok played ∧
      played.answer = .ok (ended.take wanted ++ rest) := by
  obtain ⟨said, hplayed⟩ := playRounds_eq_of_round hwanted.ne' h ha hlater
  exact ⟨_, hplayed, by rw [hrest, Except.map]⟩

/-- What is returned are the first completions of all that were ahead. -/
theorem firstOf_of_playRounds (h : playRounds E A colours' wanted table = .ok played)
    (ha : played.answer = .ok done) (clock : Nat) (hontime : table.OnTime clock) :
    ∃ first : List Completion, done = first.map (·.summary) ∧
      FirstOf wanted (table.upcoming E A each colours clock) first := by
  refine playRounds_rec (P := fun wanted table done => ∀ clock, table.OnTime clock →
    ∃ first : List Completion, done = first.map (·.summary) ∧
      FirstOf wanted (table.upcoming E A each colours clock) first) ?_ ?_ h ha clock hontime
  · intro table clock _
    exact ⟨[], rfl, FirstOf.zero _⟩
  · intro wanted table reply ended later _ hround hended ih clock hontime
    obtain ⟨now, rfl, hnow, hclock, hupcoming⟩ :=
      Table.upcoming_of_round hontime hround hended
    have hontime' := Table.onTime_of_round hontime hround hended
    obtain ⟨first, rfl, hfirst⟩ := ih (clock + 1) hontime'
    refine ⟨now.take wanted ++ first, by simp [List.map_take], ?_⟩
    rw [hupcoming]
    rw [List.length_map] at hfirst
    refine FirstOf.round hnow (fun c hc d hd => Or.inl ?_) hfirst
    rw [hclock c hc]
    exact Table.lt_of_upcoming hontime' hd

theorem rest_of_playRounds (h : playRounds E A colours' wanted table = .ok played)
    (ha : played.answer = .ok done) {seat : Seat σ α} (hseats : table.seats = [seat]) :
    done = seat.rest E A each colours 1 wanted ∧ done.length = wanted := by
  refine playRounds_rec (P := fun wanted table done => ∀ seat : Seat σ α, table.seats = [seat] →
    done = seat.rest E A each colours 1 wanted ∧ done.length = wanted) ?_ ?_ h ha seat hseats
  · intro table seat _
    exact ⟨rfl, rfl⟩
  · intro wanted table reply ended later hwanted hround hended ih seat hseats
    obtain ⟨now, played, rfl, hplay, hanswer, hseats'⟩ :=
      Table.round_of_singleton hround hended hseats
    obtain ⟨hlater, hlength⟩ := ih _ hseats'
    cases now with
    | none =>
      rw [← Seat.rest_of_play hplay hanswer]
      exact ⟨by simpa using hlater, by simpa using hlength⟩
    | some s =>
      obtain ⟨more, rfl⟩ := Nat.exists_eq_add_one_of_ne_zero hwanted.ne'
      rw [Seat.rest_of_play_some hplay hanswer]
      exact ⟨by simpa using hlater, by simpa using hlength⟩

end Rollout
end BlindArena
