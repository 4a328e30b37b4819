import BlindArena.Env.Parallel
import Mathlib.Data.List.Basic

/-!
# Episodes closed by a fleet

A step that terminates closes an episode, whether or not the reset that follows succeeds. Only then
does the seed stored by an environment change, by the stride of the fleet. An environment that a
call does not reach closes nothing. A closing is kept with its place and the seed under which the
step was made.
-/

namespace BlindArena

structure Closing where
  place : Nat
  seed : UInt64
  deriving DecidableEq

variable {σ : Type} (E : Engine σ)

def Env.closes (env : Env σ) (action : Index) : Bool :=
  match env.step E action with
  | .error _ => false
  | .ok reply =>
    match reply.answer with
    | .error _ => false
    | .ok transition => transition.terminated

namespace Env
variable {E} {env : Env σ} {action : Index} {reply : Reply (Env σ) (Except Failure Transition)}
  {transition : Transition}

theorem closes_of_step (h : env.step E action = .ok reply) (ha : reply.answer = .ok transition) :
    env.closes E action = transition.terminated := by
  simp only [closes, h, ha]

theorem closes_of_failed {failure : Failure} (h : env.step E action = .ok reply)
    (ha : reply.answer = .error failure) : env.closes E action = false := by
  simp only [closes, h, ha]

end Env

namespace Fleet

inductive Call where
  | reset
  | step (actions : List Index)
  | close

/-- The ways a call can go. -/
inductive Performs (fleet : Fleet σ) : Call → (Nat → Bool) → Fleet σ → Prop
  | reset {reached : Nat → Bool} {answer : Except Failure (List View)} {next : Fleet σ}
      (h : fleet.Resets E reached answer next) : Performs fleet .reset reached next
  | step {actions : List Index} {reached : Nat → Bool}
      {answer : Except Failure (List Transition)} {next : Fleet σ}
      (h : fleet.Steps E actions reached answer next) : Performs fleet (.step actions) reached next
  | close : Performs fleet .close (fun _ => true) fleet.close

/-- The closings of a step at the places that it reaches. -/
def stepClosings (fleet : Fleet σ) (actions : List Index) (reached : Nat → Bool) : List Closing :=
  (fleet.envs.zip actions).zipIdx.filterMap fun ((env, action), place) =>
    if reached place && env.closes E action then some ⟨place, env.seed⟩ else none

def Call.closings (fleet : Fleet σ) (reached : Nat → Bool) : Call → List Closing
  | step actions => fleet.stepClosings E actions reached
  | _ => []

variable {E} {fleet next : Fleet σ} {actions : List Index} {reached : Nat → Bool} {c : Closing}

theorem mem_stepClosings :
    c ∈ fleet.stepClosings E actions reached ↔ ∃ env action, fleet.envs[c.place]? = some env ∧
      actions[c.place]? = some action ∧ reached c.place = true ∧ env.closes E action = true ∧
      env.seed = c.seed := by
  simp only [stepClosings, List.mem_filterMap, Prod.exists, List.mk_mem_zipIdx_iff_getElem?,
    List.getElem?_zip_eq_some, Option.ite_none_right_eq_some, Option.some.injEq, Bool.and_eq_true]
  constructor
  · rintro ⟨env, action, place, ⟨henv, haction⟩, ⟨hreached, hcloses⟩, rfl⟩
    exact ⟨env, action, henv, haction, hreached, hcloses, rfl⟩
  · rintro ⟨env, action, henv, haction, hreached, hcloses, hseed⟩
    exact ⟨env, action, c.place, ⟨henv, haction⟩, ⟨hreached, hcloses⟩, by rw [hseed]⟩

theorem stepClosings_none : fleet.stepClosings E actions (fun _ => false) = [] := by
  rw [List.eq_nil_iff_forall_not_mem]
  intro c hc
  obtain ⟨_, _, -, -, hreached, -⟩ := mem_stepClosings.1 hc
  cases hreached

theorem map_seed_stepClosings : (fleet.stepClosings E actions fun _ => true).map (·.seed) =
    (fleet.envs.zip actions).filterMap fun p =>
      if p.1.closes E p.2 then some p.1.seed else none := by
  calc (fleet.stepClosings E actions fun _ => true).map (·.seed)
      = (fleet.envs.zip actions).zipIdx.filterMap ((fun p =>
          if p.1.closes E p.2 then some p.1.seed else none) ∘ Prod.fst) := by
        rw [stepClosings, List.map_filterMap]
        congr 1
        funext ⟨⟨env, action⟩, place⟩
        cases h : env.closes E action <;> simp [h]
    _ = _ := by rw [← List.filterMap_map, List.zipIdx_map_fst]

theorem nodup_stepClosings :
    ((fleet.stepClosings E actions reached).map (·.place)).Nodup := by
  have hplaces : (fleet.envs.zip actions).zipIdx.Pairwise fun p q => p.2 ≠ q.2 := by
    rw [← List.pairwise_map, List.zipIdx_map_snd]
    exact List.nodup_range'
  rw [List.Nodup, List.pairwise_map, stepClosings, List.pairwise_filterMap]
  apply hplaces.imp
  rintro ⟨⟨env, action⟩, place⟩ ⟨⟨env', action'⟩, place'⟩ hne c hc d hd
  simp only [Option.ite_none_right_eq_some, Option.some.injEq] at hc hd
  obtain ⟨-, rfl⟩ := hc
  obtain ⟨-, rfl⟩ := hd
  exact hne

theorem seed_of_advance {stride : UInt64} {env : Env σ} {action : Index}
    {reply : Reply (Env σ) (Except Failure Transition)}
    (h : advance E stride env action = .ok reply) :
    reply.state.seed = if env.closes E action then env.seed + stride else env.seed := by
  unfold advance at h
  cases hstep : env.step E action with
  | error i => simp [hstep, Except.map] at h
  | ok stepped =>
    have hseed := (Env.kept_of_step hstep).2
    simp only [hstep, Except.map, Except.ok.injEq] at h
    subst h
    cases hanswer : stepped.answer with
    | error failure => simp [Env.closes_of_failed hstep hanswer, hseed]
    | ok transition =>
      cases hends : transition.terminated with
      | true => simp [Env.closes_of_step hstep hanswer, hends, hseed]
      | false => simp [Env.closes_of_step hstep hanswer, hends, hseed]

theorem mem_places_stepClosings {place : Nat} {env : Env σ} {action : Index}
    (henv : fleet.envs[place]? = some env) (haction : actions[place]? = some action) :
    place ∈ (fleet.stepClosings E actions reached).map (·.place) ↔
      reached place = true ∧ env.closes E action = true := by
  rw [List.mem_map]
  constructor
  · rintro ⟨c, hc, rfl⟩
    obtain ⟨env', action', henv', haction', hreached, hcloses, -⟩ := mem_stepClosings.1 hc
    obtain rfl := Option.some.inj (henv.symm.trans henv')
    obtain rfl := Option.some.inj (haction.symm.trans haction')
    exact ⟨hreached, hcloses⟩
  · rintro ⟨hreached, hcloses⟩
    exact ⟨⟨place, env.seed⟩,
      mem_stepClosings.2 ⟨env, action, henv, haction, hreached, hcloses, rfl⟩, rfl⟩

theorem not_mem_places_of_left {place : Nat} (hleft : reached place = false) :
    place ∉ (fleet.stepClosings E actions reached).map (·.place) := by
  intro hmem
  obtain ⟨c, hc, rfl⟩ := List.mem_map.1 hmem
  obtain ⟨_, _, -, -, hreached, -⟩ := mem_stepClosings.1 hc
  rw [hleft] at hreached
  cases hreached

theorem nodup_closings (call : Call) :
    ((call.closings E fleet reached).map (·.place)).Nodup := by
  cases call with
  | reset | close => exact List.nodup_nil
  | step actions => exact nodup_stepClosings

/-- What is closed was running under the seed stored at its place. -/
theorem stored_of_closings {call : Call} (h : c ∈ call.closings E fleet reached) :
    ∃ env, fleet.envs[c.place]? = some env ∧ env.seed = c.seed := by
  cases call with
  | reset | close => cases h
  | step actions =>
    obtain ⟨env, action, henv, -, -, -, hseed⟩ := mem_stepClosings.1 h
    exact ⟨env, henv, hseed⟩

theorem seeds_of_step {answer : Except Failure (List Transition)}
    (h : fleet.Steps E actions reached answer next) :
    next.size = fleet.size ∧
      ∀ (place : Nat) (after : Env σ), next.envs[place]? = some after →
        ∃ env, fleet.envs[place]? = some env ∧ after.seed =
          if place ∈ (fleet.stepClosings E actions reached).map (·.place) then
            env.seed + fleet.stride
          else env.seed := by
  cases h with
  | refused hlength =>
    exact ⟨rfl, fun place after hafter => ⟨after, hafter, by simp [stepClosings_none]⟩⟩
  | made hlength hparts =>
    obtain ⟨hsize, hplaces⟩ := hparts.elim (length_parts hlength)
    refine ⟨hsize, fun place after hafter => ?_⟩
    rcases hplaces place after hafter with ⟨hreached, advanced, hpart, rfl⟩ | ⟨hleft, hbefore⟩
    · obtain ⟨env, action, henv, haction, hadvance⟩ := List.getElem?_zipWith_eq_some.1 hpart
      refine ⟨env, henv, ?_⟩
      simp only [mem_places_stepClosings henv haction, hreached, true_and]
      exact seed_of_advance hadvance
    · exact ⟨after, hbefore, (if_neg (not_mem_places_of_left hleft)).symm⟩

theorem seeds_of_reset {answer : Except Failure (List View)}
    (h : fleet.Resets E reached answer next) :
    next.size = fleet.size ∧ ∀ (place : Nat) (after : Env σ), next.envs[place]? = some after →
      ∃ env, fleet.envs[place]? = some env ∧ after.seed = env.seed := by
  obtain ⟨hsize, hplaces⟩ := Parallel.elim h (List.length_map _)
  refine ⟨hsize, fun place after hafter => ?_⟩
  rcases hplaces place after hafter with ⟨-, opened, hpart, rfl⟩ | ⟨-, hbefore⟩
  · rw [List.getElem?_map, Option.map_eq_some_iff] at hpart
    obtain ⟨env, henv, hreset⟩ := hpart
    obtain rfl := Except.ok.inj hreset
    exact ⟨env, henv, Env.seed_reset env env.seed⟩
  · exact ⟨after, hbefore, rfl⟩

/-- A call moves a stored seed by the stride where it closes an episode, and nowhere else. -/
theorem seeds_of_performs {call : Call} (h : fleet.Performs E call reached next) :
    next.size = fleet.size ∧
      ∀ (place : Nat) (after : Env σ), next.envs[place]? = some after →
        ∃ env, fleet.envs[place]? = some env ∧ after.seed =
          if place ∈ (call.closings E fleet reached).map (·.place) then env.seed + fleet.stride
          else env.seed := by
  cases h with
  | reset h =>
    obtain ⟨hsize, hseeds⟩ := seeds_of_reset h
    refine ⟨hsize, fun place after hafter => ?_⟩
    obtain ⟨env, henv, hseed⟩ := hseeds place after hafter
    exact ⟨env, henv, by simp [Call.closings, hseed]⟩
  | step h => exact seeds_of_step h
  | close =>
    refine ⟨by simp [close, size], fun place after hafter => ?_⟩
    simp only [close, List.getElem?_map, Option.map_eq_some_iff] at hafter
    obtain ⟨env, henv, rfl⟩ := hafter
    exact ⟨env, henv, by simp [Call.closings, Env.close]⟩

end Fleet
end BlindArena
