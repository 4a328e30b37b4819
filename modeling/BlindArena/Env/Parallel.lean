import BlindArena.Env.Fleet

/-!
# Calls made in parallel

The environments of a fleet are worked on in parallel, in no particular order. Once one of them has
failed, those that were not reached by then are left as they are, and the answer is a failure of one
that was. So a call that fails can go in several ways, and the next call goes on from what it
leaves. `Fleet.reset` and `Fleet.step` take the way that reaches every environment. A call that
succeeds has no other.
-/

namespace BlindArena
variable {σ β : Type}

abbrev Part (σ β : Type) := Except Interruption (Reply (Env σ) (Except Failure β))

/-- The ways a call can go: the places that are reached, the answer, and the environments after. -/
inductive Parallel (parts : List (Part σ β)) (before : List (Env σ)) :
    (Nat → Bool) → Except Failure (List β) → List (Env σ) → Prop
  | completed {replies : List (Reply (Env σ) (Except Failure β))} {values : List β}
      (hparts : parts = replies.map .ok) (hvalues : replies.map (·.answer) = values.map .ok) :
      Parallel parts before (fun _ => true) (.ok values) (replies.map (·.state))
  | cut {reached : Nat → Bool} {after : List (Env σ)} {failed : Nat}
      {reply : Reply (Env σ) (Except Failure β)} {failure : Failure}
      (hlength : after.length = before.length)
      (hmade : ∀ place part, parts[place]? = some part → reached place = true →
        ∃ reply, part = .ok reply ∧ after[place]? = some reply.state)
      (hleft : ∀ place, reached place = false → after[place]? = before[place]?)
      (hreached : reached failed = true) (hpart : parts[failed]? = some (.ok reply))
      (hfailure : reply.answer = .error failure) :
      Parallel parts before reached (.error failure) after

namespace Parallel
variable {parts : List (Part σ β)} {before after : List (Env σ)} {reached : Nat → Bool}
  {answer : Except Failure (List β)} {replies : List (Reply (Env σ) (Except Failure β))}

/-- Every environment is as its own part of the call leaves it, or as it was. -/
theorem elim (h : Parallel parts before reached answer after)
    (hparts : parts.length = before.length) :
    after.length = before.length ∧ ∀ (place : Nat) (env : Env σ), after[place]? = some env →
      (reached place = true ∧ ∃ reply, parts[place]? = some (.ok reply) ∧ reply.state = env) ∨
        reached place = false ∧ before[place]? = some env := by
  cases h with
  | @completed replies values hmade hvalues =>
    subst hmade
    rw [List.length_map] at hparts
    refine ⟨by rw [List.length_map, hparts], fun place env henv => Or.inl ⟨rfl, ?_⟩⟩
    rw [List.getElem?_map, Option.map_eq_some_iff] at henv
    obtain ⟨reply, hreply, hstate⟩ := henv
    exact ⟨reply, by rw [List.getElem?_map, hreply, Option.map_some], hstate⟩
  | cut hlength hmade hleft =>
    refine ⟨hlength, fun place env henv => ?_⟩
    cases hplace : reached place with
    | false => exact Or.inr ⟨rfl, (hleft place hplace).symm.trans henv⟩
    | true =>
      obtain ⟨hlt, -⟩ := List.getElem?_eq_some_iff.1 henv
      have hpart := List.getElem?_eq_getElem (hparts ▸ hlength ▸ hlt)
      obtain ⟨reply, hreply, hafter⟩ := hmade place _ hpart hplace
      rw [hreply] at hpart
      exact Or.inl ⟨rfl, reply, hpart, Option.some.inj (hafter.symm.trans henv)⟩

theorem ok_elim {values : List β} (h : Parallel parts before reached (.ok values) after) :
    reached = (fun _ => true) ∧ ∃ replies : List (Reply (Env σ) (Except Failure β)),
      parts = replies.map .ok ∧ replies.map (·.answer) = values.map .ok ∧
        after = replies.map (·.state) := by
  cases h with
  | completed hparts hvalues => exact ⟨rfl, _, hparts, hvalues, rfl⟩

/-- All of them can be reached. Then any failure may be the answer, the first among them. -/
theorem of_all (hparts : parts = replies.map .ok) (hlength : replies.length = before.length) :
    Parallel parts before (fun _ => true) (collect (replies.map (·.answer)))
      (replies.map (·.state)) := by
  cases hanswers : collect (replies.map (·.answer)) with
  | ok values => exact .completed hparts (collect_eq_ok_iff.1 hanswers)
  | error failure =>
    obtain ⟨failed, hfailed⟩ := List.mem_iff_getElem?.1 (error_mem_of_collect hanswers)
    rw [List.getElem?_map, Option.map_eq_some_iff] at hfailed
    obtain ⟨reply, hreply, hfailure⟩ := hfailed
    have hpart : parts[failed]? = some (.ok reply) := by
      rw [hparts, List.getElem?_map, hreply, Option.map_some]
    refine .cut (by rw [List.length_map, hlength]) ?_ ?_ rfl hpart hfailure
    · intro place part hmade _
      rw [hparts, List.getElem?_map, Option.map_eq_some_iff] at hmade
      obtain ⟨made, hmade, rfl⟩ := hmade
      exact ⟨made, rfl, by rw [List.getElem?_map, hmade, Option.map_some]⟩
    · exact fun _ hfalse => absurd hfalse (by decide)

theorem of_failed {place : Nat} {reply : Reply (Env σ) (Except Failure β)} {failure : Failure}
    (hparts : parts.length = before.length) (hpart : parts[place]? = some (.ok reply))
    (hfailure : reply.answer = .error failure) :
    Parallel parts before (· == place) (.error failure) (before.set place reply.state) := by
  obtain ⟨hlt, -⟩ := List.getElem?_eq_some_iff.1 hpart
  refine .cut List.length_set ?_ ?_ (beq_self_eq_true place) hpart hfailure
  · intro other part hother hreached
    obtain rfl : other = place := by simpa using hreached
    exact ⟨reply, Option.some.inj (hother.symm.trans hpart),
      List.getElem?_set_self (hparts ▸ hlt)⟩
  · intro other hleft
    exact List.getElem?_set_ne (ne_of_beq_false hleft).symm

end Parallel

namespace Fleet
variable (E : Engine σ)

def Resets (fleet : Fleet σ) (reached : Nat → Bool) (answer : Except Failure (List View))
    (next : Fleet σ) : Prop :=
  Parallel (fleet.envs.map fun env => .ok (env.reset E none)) fleet.envs reached answer next.envs

inductive Steps (fleet : Fleet σ) (actions : List Index) :
    (Nat → Bool) → Except Failure (List Transition) → Fleet σ → Prop
  | refused (h : actions.length ≠ fleet.size) :
      Steps fleet actions (fun _ => false) (.error (.actionCount fleet.size actions.length)) fleet
  | made {reached : Nat → Bool} {answer : Except Failure (List Transition)} {next : Fleet σ}
      (h : actions.length = fleet.size)
      (hparts : Parallel (List.zipWith (advance E fleet.stride) fleet.envs actions) fleet.envs
        reached answer next.envs) :
      Steps fleet actions reached answer next

variable {E} {fleet next : Fleet σ} {reached : Nat → Bool} {actions : List Index}

theorem eq_of_envs {other : Fleet σ} (h : fleet.envs = other.envs) : fleet = other := by
  obtain ⟨envs, hne⟩ := fleet
  subst h
  rfl

theorem resets_reset (fleet : Fleet σ) :
    fleet.Resets E (fun _ => true) (fleet.reset E).answer (fleet.reset E).state := by
  refine Parallel.of_all ?_ (List.length_map _)
  rw [List.map_map]
  rfl

theorem length_parts (h : actions.length = fleet.size) :
    (List.zipWith (advance E fleet.stride) fleet.envs actions).length = fleet.envs.length := by
  rw [List.length_zipWith, h, size, Nat.min_self]

theorem step_of_advances {replies : List (Reply (Env σ) (Except Failure Transition))}
    (hlength : actions.length = fleet.size)
    (h : List.zipWith (advance E fleet.stride) fleet.envs actions = replies.map .ok) :
    ∃ reply, fleet.step E actions = .ok reply ∧
      reply.answer = collect (replies.map (·.answer)) ∧
      reply.state.envs = replies.map (·.state) := by
  rw [← gather_eq_ok_iff] at h
  unfold step
  rw [dif_pos hlength]
  split
  · rename_i hfailed
    rw [hfailed] at h
    cases h
  · rename_i replies' hreplies
    obtain rfl := Except.ok.inj (hreplies.symm.trans h)
    exact ⟨_, rfl, rfl, rfl⟩

theorem steps_of_step {reply : Reply (Fleet σ) (Except Failure (List Transition))}
    (h : fleet.step E actions = .ok reply) :
    ∃ reached, fleet.Steps E actions reached reply.answer reply.state := by
  unfold step at h
  split at h
  · rename_i hlength
    split at h
    · cases h
    · rename_i replies hreplies
      cases h
      rw [gather_eq_ok_iff] at hreplies
      have hsize := length_parts (E := E) hlength
      rw [hreplies, List.length_map] at hsize
      exact ⟨_, .made hlength (.of_all hreplies hsize)⟩
  · rename_i hlength
    cases h
    exact ⟨_, .refused hlength⟩

/-- A reset that succeeds goes in one way. -/
theorem resets_ok_iff {views : List View} :
    fleet.Resets E reached (.ok views) next ↔
      reached = (fun _ => true) ∧ (fleet.reset E).answer = .ok views ∧
        (fleet.reset E).state = next := by
  constructor
  · intro h
    obtain ⟨hreached, replies, hparts, hvalues, hafter⟩ := h.ok_elim
    have hresets : fleet.envs.map (fun env => env.reset E none) = replies := by
      rw [← List.map_inj_right fun _ _ => Except.ok.inj, List.map_map]
      exact hparts
    refine ⟨hreached, ?_, eq_of_envs ?_⟩
    · rw [← hresets] at hvalues
      exact collect_eq_ok_iff.2 hvalues
    · rw [hafter, ← hresets]
      rfl
  · rintro ⟨rfl, hanswer, rfl⟩
    rw [← hanswer]
    exact resets_reset fleet

theorem steps_ok_iff {transitions : List Transition} :
    fleet.Steps E actions reached (.ok transitions) next ↔
      reached = (fun _ => true) ∧ ∃ reply, fleet.step E actions = .ok reply ∧
        reply.answer = .ok transitions ∧ reply.state = next := by
  constructor
  · rintro (- | ⟨hlength, hparts⟩)
    obtain ⟨hreached, replies, hmade, hvalues, hafter⟩ := hparts.ok_elim
    obtain ⟨reply, hstep, hanswer, henvs⟩ := step_of_advances hlength hmade
    exact ⟨hreached, reply, hstep, hanswer.trans (collect_eq_ok_iff.2 hvalues),
      eq_of_envs (henvs.trans hafter.symm)⟩
  · rintro ⟨rfl, reply, hstep, hanswer, rfl⟩
    obtain ⟨reached, hsteps⟩ := steps_of_step hstep
    rw [hanswer] at hsteps
    cases hsteps with
    | made hlength hparts =>
      obtain ⟨rfl, -⟩ := hparts.ok_elim
      exact .made hlength hparts

end Fleet
end BlindArena
