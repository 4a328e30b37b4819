import BlindArena.Agent
import BlindArena.Env.Lemmas
import BlindArena.Rollout.Summary

/-!
# Episodes

An agent plays an environment from a fresh reset until the episode ends. Every step that does not
end it brings the step count closer to the budget, so it does end.
-/

namespace BlindArena

/-- What playing leaves: the summary or a failure, the environment and the agent as they are then,
the transitions so far, and all that was written. -/
structure Played (σ α : Type) where
  answer : Except Failure Summary
  env : Env σ
  agent : α
  transitions : List Transition
  transcript : Transcript

namespace Rollout
variable {σ α : Type} (E : Engine σ) (A : Agent α)

/-- Play on from a view; `each` says what is written for a transition as it is produced. -/
def playOn (each : Transition → Transcript) (colours : Bool) (env : Env σ) (agent : α) (view : View)
    (summary : Summary) : Except Interruption (Played σ α) :=
  let choice := A.act agent view
  match h : env.step E choice.1 with
  | .error i => .error i
  | .ok reply =>
    match ha : reply.answer with
    | .error failure => .ok ⟨.error failure, reply.state, choice.2, [], reply.transcript⟩
    | .ok transition =>
      let summary := summary.absorb transition
      let said := reply.transcript ++ each transition
      match hgoes : transition.terminated with
      | true =>
        .ok ⟨.ok summary, reply.state, choice.2, [transition],
          said ++ [Transcript.log .debug (summary.display colours)]⟩
      | false =>
        have : reply.state.remaining < env.remaining := by
          have := Env.remaining_of_step h ha hgoes
          omega
        match playOn each colours reply.state choice.2 transition.view summary with
        | .error i => .error (i.after said)
        | .ok played =>
          .ok
            { played with
              transitions := transition :: played.transitions
              transcript := said ++ played.transcript }
termination_by env.remaining

variable {E A} in
theorem playOn_of_step (h : env.step E (A.act agent view).1 = .ok reply)
    (ha : reply.answer = .ok transition) :
    let said := reply.transcript ++ each transition
    let total := summary.absorb transition
    playOn E A each colours env agent view summary =
      if transition.terminated then
        .ok ⟨.ok total, reply.state, (A.act agent view).2, [transition],
          said ++ [Transcript.log .debug (total.display colours)]⟩
      else
        match playOn E A each colours reply.state (A.act agent view).2 transition.view total with
        | .error i => .error (i.after said)
        | .ok played =>
          .ok
            { played with
              transitions := transition :: played.transitions
              transcript := said ++ played.transcript } := by
  intro said total
  rw [playOn]
  dsimp only
  split
  · rename_i hstep
    rw [hstep] at h
    cases h
  · rename_i stepped hstep
    obtain rfl : stepped = reply := Except.ok.inj (hstep.symm.trans h)
    split
    · rename_i hfailed
      rw [hfailed] at ha
      cases ha
    · rename_i made hmade
      obtain rfl : made = transition := Except.ok.inj (hmade.symm.trans ha)
      split
      · rename_i hends
        exact (if_pos hends).symm
      · rename_i hgoes
        exact (if_neg (by simp [hgoes])).symm

def episode (each : Transition → Transcript) (colours : Bool) (env : Env σ) (seed : Option UInt64)
    (agent : α) : Except Interruption (Played σ α) :=
  let opened := env.reset E seed
  match opened.answer with
  | .error failure => .ok ⟨.error failure, opened.state, agent, [], opened.transcript⟩
  | .ok view =>
    let summary : Summary := { seed := opened.state.seed }
    match playOn E A each colours opened.state agent view summary with
    | .error i => .error (i.after opened.transcript)
    | .ok played => .ok { played with transcript := opened.transcript ++ played.transcript }

end Rollout

end BlindArena
