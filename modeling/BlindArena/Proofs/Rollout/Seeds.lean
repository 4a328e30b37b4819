import BlindArena.Proofs.Fleet.Labels
import BlindArena.Proofs.Rollout.Ways

/-!
# No two episodes share a seed

A fleet is reset, stepped, closed and played in batches, in any order, and each of these may fail
and then leave some of the environments as they were. All the while its seeds are labels: a stored
seed tells how many episodes were closed at its place. So the episodes that batches return have
different seeds, and a reset never brings back the seed of an episode that was closed.
-/

namespace BlindArena
namespace Rollout

inductive Order : Type 1 where
  | call (c : Fleet.Call)
  | batch {α : Type} (A : Agent α) (agents : List α) (episodes : Nat)

/-- What orders leave: the fleet, the episodes closed, and the summaries that batches returned. -/
structure Account (σ : Type) where
  fleet : Fleet σ
  closings : List Closing := []
  returned : List Summary := []

variable {σ : Type} (E : Engine σ)

/-- The ways an order can go. A batch that fails returns nothing. -/
inductive Order.Performs (account : Account σ) : Order → Account σ → Prop
  | call {c : Fleet.Call} {reached : Nat → Bool} {next : Fleet σ}
      (h : account.fleet.Performs E c reached next) :
      Performs account (.call c)
        ⟨next, account.closings ++ c.closings E account.fleet reached, account.returned⟩
  | batch {α : Type} {A : Agent α} {agents : List α} {episodes : Nat} {closings : List Closing}
      {answer : Except Failure (List Summary)} {next : Fleet σ}
      (h : Batches E A account.fleet agents episodes closings answer next) :
      Performs account (.batch A agents episodes)
        ⟨next, account.closings ++ closings, account.returned ++ answer.toOption.getD []⟩

theorem Order.Performs.of_call {E : Engine σ} {account : Account σ} {c : Fleet.Call}
    {reached : Nat → Bool} {next : Fleet σ} {closings : List Closing}
    (h : account.fleet.Performs E c reached next)
    (hclosings : c.closings E account.fleet reached = closings) :
    Order.Performs E account (.call c)
      ⟨next, account.closings ++ closings, account.returned⟩ := hclosings ▸ .call h

/-- The ways orders in a row can go. -/
inductive Follows : Account σ → List Order → Account σ → Prop
  | nil (account : Account σ) : Follows account [] account
  | cons {account next last : Account σ} {order : Order} {orders : List Order}
      (h : order.Performs E account next) (later : Follows next orders last) :
      Follows account (order :: orders) last

/-- The seeds of an account are labels, and only closed episodes were returned. -/
structure Account.Sound (base : UInt64) (n : Nat) (account : Account σ) : Prop where
  labelled : account.fleet.Labelled base n account.closings
  returned : (account.returned.map (·.seed)).Sublist (account.closings.map (·.seed))

variable {E} {base : UInt64} {n : Nat} {account next last : Account σ} {orders : List Order}

section ways
variable {α : Type} {A : Agent α} {wanted : Nat} {table : Table σ α} {log closings : List Closing}
  {answer : Except Failure (List Summary)} {fleet after : Fleet σ}

theorem labelled_of_plays (h : Plays E A wanted table closings answer after)
    (hlabelled : table.fleet.Labelled base n log) : after.Labelled base n (log ++ closings) := by
  induction h generalizing log with
  | filled table => simpa using hlabelled
  | failed hwanted hstep => exact hlabelled.performs (.step hstep)
  | round hwanted hround hended _ ih =>
    -- a round that succeeds is a step that reaches everyone
    obtain ⟨transitions, hsteps⟩ := Table.steps_of_round_ok hround hended
    rw [← List.append_assoc]
    exact ih (hlabelled.performs (.step hsteps))

theorem seeds_of_plays (h : Plays E A wanted table closings answer after)
    (hseeded : table.Seeded) :
    ((answer.toOption.getD []).map (·.seed)).Sublist (closings.map (·.seed)) := by
  induction h with
  | filled | failed => exact List.nil_sublist _
  | @round wanted table reply ended closings answer next hwanted hround hended _ ih =>
    obtain ⟨hseeds, hseeded'⟩ := Table.seeds_of_round hseeded hround hended
    have hlater := ih hseeded'
    cases answer with
    | error failure => exact List.nil_sublist _
    | ok rest =>
      simp only [Except.map, Except.toOption, Option.getD_some, List.map_append] at hlater ⊢
      rw [← hseeds]
      exact ((List.take_sublist wanted ended).map _).append hlater

theorem sound_of_batches {agents : List α} {episodes : Nat}
    (h : Batches E A fleet agents episodes closings answer after)
    (hlabelled : fleet.Labelled base n log) :
    after.Labelled base n (log ++ closings) ∧
      ((answer.toOption.getD []).map (·.seed)).Sublist (closings.map (·.seed)) := by
  cases h with
  | refused => exact ⟨by simpa using hlabelled, List.nil_sublist _⟩
  | unopened _ hreset => exact ⟨hlabelled.performs (.reset hreset), List.nil_sublist _⟩
  | @played _ _ opened _ _ _ _ hagents hreset _ hseats hplays =>
    obtain ⟨hopened, hstate⟩ := Opened.of_resets hagents hreset hseats
    have hfresh : opened.Labelled base n (log ++ []) := hlabelled.performs (.reset hreset)
    rw [List.append_nil, ← hstate, ← hopened.fleet_eq] at hfresh
    exact ⟨labelled_of_plays hplays hfresh, seeds_of_plays hplays hopened.seeded⟩

end ways

theorem Account.Sound.performs (h : account.Sound base n) {order : Order}
    (horder : order.Performs E account next) : next.Sound base n := by
  cases horder with
  | call hcall =>
    refine ⟨h.labelled.performs hcall, ?_⟩
    rw [List.map_append]
    exact h.returned.trans (List.sublist_append_left _ _)
  | batch hbatch =>
    obtain ⟨hlabelled, hreturned⟩ := sound_of_batches hbatch h.labelled
    refine ⟨hlabelled, ?_⟩
    rw [List.map_append, List.map_append]
    exact h.returned.append hreturned

theorem Account.Sound.follows (h : account.Sound base n)
    (hfollows : Follows E account orders last) : last.Sound base n := by
  induction hfollows with
  | nil => exact h
  | cons horder _ ih => exact ih (h.performs horder)

/-- The seed stored at a place is the base seed moved on by the place, and by the size of the fleet
for every episode closed there, however the calls go. Until such numbers wrap around, no two
episodes that were closed share a seed, no two that batches returned do, and no seed that is stored
was closed. -/
theorem distinct_seeds {config : Config} {word : UInt64} {fleet : Fleet σ}
    (hmake : (Fleet.make E n config word).1 = .ok fleet)
    (hfollows : Follows E ⟨fleet, [], []⟩ orders last) :
    (last.fleet.size = n ∧
      ∀ (place : Nat) (env : Env σ), last.fleet.envs[place]? = some env → env.seed.toNat =
        ((config.seedOr word).toNat + place + closed place last.closings * n) % UInt64.size) ∧
    (Unwrapped n last.closings →
      (last.closings.map (·.seed)).Nodup ∧ (last.returned.map (·.seed)).Nodup ∧
        ∀ env ∈ last.fleet.envs, env.seed ∉ last.closings.map (·.seed)) := by
  have hopen : Account.Sound (config.seedOr word) n ⟨fleet, [], []⟩ :=
    ⟨Fleet.labelled_of_make hmake, List.Sublist.refl _⟩
  obtain ⟨hlabelled, hreturned⟩ := hopen.follows hfollows
  refine ⟨⟨hlabelled.size, fun place env henv => ?_⟩, fun hlog => ?_⟩
  · rw [hlabelled.stored place env henv, toNat_label]
  · have hdistinct := hlabelled.distinct hlog
    refine ⟨hdistinct, hdistinct.sublist hreturned, fun env henv => ?_⟩
    obtain ⟨place, hplace⟩ := List.mem_iff_getElem?.1 henv
    exact hlabelled.fresh hlog hplace

def wary : Script where
  frames := [{ report := some (.input .blindSelect [⟨1, "select"⟩]) },
    { report := some (.ended (some .gameOver) false) },
    { report := some (.ended (some .gameOver) false) }]
  refused := [1]

/-- Two environments. The first closes an episode and cannot begin the next one, and the second is
not reached; then both are stepped, and played in a batch. Their seeds wrap around, and none comes
twice. -/
theorem distinct_seeds_of_wary :
    ∃ fleet before last,
      (Fleet.make wary.engine 2 (Config.seeded {} 0xffffffffffffffff) 0).1 = .ok fleet ∧
      Follows wary.engine ⟨fleet, [], []⟩ [.call .reset, .call (.step [1, 1]), .call (.step [1, 1]),
        .batch Player.agent [.first, .first] 1] last ∧
      last.closings = [⟨0, 0xffffffffffffffff⟩, ⟨0, 1⟩, ⟨1, 0⟩, ⟨0, 3⟩, ⟨1, 2⟩] ∧
      (∃ played, batch wary.engine Player.agent false before [.first, .first] 1 = .ok played ∧
        played.answer = .ok last.returned ∧ played.state = last.fleet) ∧
      last.returned.map (·.seed) = [3] ∧ last.fleet.envs.map (·.seed) = [5, 4] ∧
      Unwrapped 2 last.closings ∧ (last.closings.map (·.seed)).Nodup ∧
      ∀ env ∈ last.fleet.envs, env.seed ∉ last.closings.map (·.seed) := by
  obtain ⟨fleet, closing, failure, left, stepped, transitions, views, table, once, ended, hmake,
      hsize, hpart, hfailure, hleft, hfirst, hsize', hstep, hmade, hsecond, hagents, hviews, hseats,
      hround, hended, hlength, hthird, hreturns, hstored⟩ :
      ∃ fleet, ∃ closing : Reply (Env Nat) (Except Failure Transition), ∃ failure,
        ∃ left : Fleet Nat, ∃ stepped transitions views, ∃ table : Table Nat Player, ∃ once,
        ∃ ended : List Summary,
        (Fleet.make wary.engine 2 (Config.seeded {} 0xffffffffffffffff) 0).1 = .ok fleet ∧
        let opened := (fleet.reset wary.engine).state
        opened.size = 2 ∧
        (List.zipWith (Fleet.advance wary.engine opened.stride) opened.envs [1, 1])[0]? =
          some (.ok closing) ∧
        closing.answer = .error failure ∧ left.envs = opened.envs.set 0 closing.state ∧
        opened.stepClosings wary.engine [1, 1] (· == 0) = [⟨0, 0xffffffffffffffff⟩] ∧
        left.size = 2 ∧ left.step wary.engine [1, 1] = .ok stepped ∧
        stepped.answer = .ok transitions ∧
        left.stepClosings wary.engine [1, 1] (fun _ => true) = [⟨0, 1⟩, ⟨1, 0⟩] ∧
        [Player.first, .first].length = stepped.state.size ∧
        (stepped.state.reset wary.engine).answer = .ok views ∧
        table.seats = List.zipWith seat (stepped.state.reset wary.engine).state.envs
          ([Player.first, .first].zip views) ∧
        table.round wary.engine Player.agent = .ok once ∧ once.answer = .ok ended ∧
        ended.length = 2 ∧
        table.fleet.stepClosings wary.engine (table.choices Player.agent) (fun _ => true) =
          [⟨0, 3⟩, ⟨1, 2⟩] ∧
        (ended.take 1).map (·.seed) = [3] ∧ once.state.fleet.envs.map (·.seed) = [5, 4] :=
    ⟨_, _, _, ⟨[_, _], by simp⟩, _, _, _, ⟨[_, _], by simp⟩, _, _, rfl, rfl, rfl, rfl, rfl,
      by decide, rfl, rfl, rfl, by decide, rfl, rfl, rfl, rfl, rfl, rfl, by decide, by decide,
      by decide⟩
  let opened := (fleet.reset wary.engine).state
  -- the reset of the first environment fails before the second is reached
  have hcut : opened.Steps wary.engine [1, 1] (· == 0) (.error failure) left := by
    refine .made hsize.symm ?_
    rw [hleft]
    exact .of_failed (Fleet.length_parts hsize.symm) hpart hfailure
  have hall := Fleet.steps_ok_iff.2 ⟨rfl, stepped, hstep, hmade, rfl⟩
  have hbatch : Batches wary.engine Player.agent stepped.state [.first, .first] 1
      [⟨0, 3⟩, ⟨1, 2⟩] (.ok (ended.take 1)) once.state.fleet := by
    rw [← hthird]
    exact .played hagents (Fleet.resets_ok_iff.2 ⟨rfl, hviews, rfl⟩) (by decide) hseats
      (.of_round Nat.one_ne_zero hround hended (by omega))
  have hfollows : Follows wary.engine ⟨fleet, [], []⟩ [.call .reset, .call (.step [1, 1]),
      .call (.step [1, 1]), .batch Player.agent [.first, .first] 1]
        ⟨once.state.fleet, [⟨0, 0xffffffffffffffff⟩, ⟨0, 1⟩, ⟨1, 0⟩, ⟨0, 3⟩, ⟨1, 2⟩],
          ended.take 1⟩ := by
    exact .cons (.of_call (.reset (Fleet.resets_reset fleet)) rfl)
      (.cons (.of_call (.step hcut) hfirst) (.cons (.of_call (.step hall) hsecond)
        (.cons (.batch hbatch) (.nil _))))
  have hunwrapped : Unwrapped 2
      [⟨0, 0xffffffffffffffff⟩, ⟨0, 1⟩, ⟨1, 0⟩, ⟨0, 3⟩, ⟨1, 2⟩] := by
    unfold Unwrapped
    decide
  obtain ⟨-, hdistinct⟩ := distinct_seeds hmake hfollows
  obtain ⟨hnodup, -, hfresh⟩ := hdistinct hunwrapped
  exact ⟨fleet, stepped.state, _, hmake, hfollows, rfl, (batches_ok_iff false).1 ⟨_, hbatch⟩,
    hreturns, hstored, hunwrapped, hnodup, hfresh⟩

end Rollout
end BlindArena
