import BlindArena.Proofs.Fleet.Closings
import BlindArena.Proofs.Rollout.Rounds

/-!
# A round as a step of the fleet

A round steps the fleet with the choices of the agents. It leaves the fleet as this step does, and
the summaries of a round that succeeds bear the seeds of the episodes that the step closes.
-/

namespace BlindArena
variable {σ α : Type} (E : Engine σ) (A : Agent α)

namespace Seat

def choice (seat : Seat σ α) : Index := (A.act seat.agent seat.view).1

variable {E A} {stride : UInt64} {seat : Seat σ α} {seats : List (Seat σ α)}
  {reply : Reply (Seat σ α) (Except Failure (Option Summary))}

theorem advance_of_play (h : seat.play E A stride = .ok reply) :
    ∃ advanced, Fleet.advance E stride seat.env (seat.choice A) = .ok advanced ∧
      advanced.state = reply.state.env := by
  unfold play at h
  cases hadvance : Fleet.advance E stride seat.env (seat.choice A) with
  | error i =>
    rw [choice] at hadvance
    simp [hadvance, Except.map] at h
  | ok advanced =>
    refine ⟨advanced, rfl, ?_⟩
    rw [choice] at hadvance
    simp only [hadvance, Except.map, Except.ok.injEq] at h
    subst h
    split
    · rfl
    · split <;> rfl

theorem advances_of_plays {replies : List (Reply (Seat σ α) (Except Failure (Option Summary)))}
    (h : seats.map (Seat.play E A stride) = replies.map .ok) :
    ∃ advances : List (Reply (Env σ) (Except Failure Transition)),
      List.zipWith (Fleet.advance E stride) (seats.map (·.env)) (seats.map (choice A)) =
        advances.map .ok ∧
      advances.map (·.state) = replies.map (·.state.env) := by
  induction seats generalizing replies with
  | nil => cases replies <;> simp_all
  | cons seat seats ih =>
    cases replies with
    | nil => simp at h
    | cons reply replies =>
      simp only [List.map_cons, List.cons.injEq] at h
      obtain ⟨advanced, hadvance, hstate⟩ := advance_of_play h.1
      obtain ⟨advances, hadvances, hstates⟩ := ih h.2
      exact ⟨advanced :: advances, by simp [hadvance, hadvances], by simp [hstate, hstates]⟩

/-- The present episode is counted under the seed of its environment. -/
def Seeded (seat : Seat σ α) : Prop := seat.running.seed = seat.env.seed

/-- A play returns a summary just when it closes an episode, and under the same seed. -/
theorem seeds_of_play (hseeded : seat.Seeded) (h : seat.play E A stride = .ok reply)
    {now : Option Summary} (ha : reply.answer = .ok now) :
    now.map (·.seed) =
        (if seat.env.closes E (seat.choice A) then some seat.env.seed else none) ∧
      reply.state.Seeded := by
  obtain ⟨stepped, transition, hstep, htransition, hplay⟩ := play_ok_elim h ha
  rw [choice, Env.closes_of_step hstep htransition]
  cases hends : transition.terminated with
  | true =>
    simp only [hends, if_true] at hplay
    obtain ⟨opening, -, rfl, hstate⟩ := hplay
    rw [hstate]
    exact ⟨congrArg some hseeded, rfl⟩
  | false =>
    simp only [hends, Bool.false_eq_true, if_false] at hplay
    obtain ⟨rfl, hstate⟩ := hplay
    rw [hstate]
    exact ⟨rfl, hseeded.trans (Env.kept_of_step hstep).2.symm⟩

end Seat

namespace Table

def choices (table : Table σ α) : List Index := table.seats.map (Seat.choice A)

def Seeded (table : Table σ α) : Prop := ∀ seat ∈ table.seats, seat.Seeded

variable {E A} {table : Table σ α} {reply : Reply (Table σ α) (Except Failure (List Summary))}
  {ended : List Summary}

@[simp] theorem length_choices : (table.choices A).length = table.fleet.size := by
  simp [choices, fleet, Fleet.size]

theorem state_of_round (h : table.round E A = .ok reply) :
    ∃ stepped, table.fleet.step E (table.choices A) = .ok stepped ∧
      stepped.state = reply.state.fleet := by
  unfold round at h
  split at h
  · cases h
  · rename_i replies hreplies
    cases h
    obtain ⟨advances, hadvances, hstates⟩ := Seat.advances_of_plays (gather_eq_ok_iff.1 hreplies)
    obtain ⟨stepped, hstep, -, henvs⟩ := Fleet.step_of_advances length_choices hadvances
    refine ⟨stepped, hstep, Fleet.eq_of_envs ?_⟩
    rw [henvs, hstates]
    simp [fleet]

/-- The summaries of a round are those of the episodes that its step closes. -/
theorem seeds_of_round (hseeded : table.Seeded) (h : table.round E A = .ok reply)
    (ha : reply.answer = .ok ended) :
    ended.map (·.seed) =
        (table.fleet.stepClosings E (table.choices A) fun _ => true).map (·.seed) ∧
      reply.state.Seeded := by
  obtain ⟨ends, rfl, -, hends, hseats, hround⟩ := round_ok_elim h ha
  constructor
  · have hsteps : ends.map (Option.map (·.seed)) =
        (table.fleet.envs.zip (table.choices A)).map fun p =>
          if p.1.closes E p.2 then some p.1.seed else none := by
      -- seat by seat; past the last one neither list goes on
      apply List.ext_getElem?
      intro place
      cases hseat : table.seats[place]? with
      | none =>
        have hshort := List.getElem?_eq_none_iff.1 hseat
        have hnone := List.getElem?_eq_none_iff.2 (hends.trans_le hshort)
        simp [choices, fleet, hseat, hnone, List.zip_map', List.getElem?_map]
      | some seat =>
        obtain ⟨played, now, hplay, hanswer, hnow, -⟩ := hround place seat hseat
        have hseeds :=
          (Seat.seeds_of_play (hseeded seat (List.mem_of_getElem? hseat)) hplay hanswer).1
        simp [choices, fleet, hseat, hnow, hseeds, List.zip_map', List.getElem?_map]
    rw [Fleet.map_seed_stepClosings]
    calc (ends.filterMap id).map (·.seed)
        = (ends.map (Option.map (·.seed))).filterMap id := by
          simp [List.map_filterMap, List.filterMap_map]
      _ = _ := by
          rw [hsteps, List.filterMap_map]
          rfl
  · intro after hafter
    obtain ⟨place, hplace⟩ := List.mem_iff_getElem?.1 hafter
    obtain ⟨hlt, -⟩ := List.getElem?_eq_some_iff.1 hplace
    have hbefore := List.getElem?_eq_getElem (hseats ▸ hlt)
    obtain ⟨played, now, hplay, hanswer, -, hstate⟩ := hround place _ hbefore
    obtain rfl := Option.some.inj (hplace.symm.trans hstate)
    exact (Seat.seeds_of_play (hseeded _ (List.mem_of_getElem? hbefore)) hplay hanswer).2

end Table

end BlindArena
