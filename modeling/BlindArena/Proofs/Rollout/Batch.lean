import BlindArena.CommandLine.Run
import BlindArena.Proofs.Rollout.Rounds
import BlindArena.Replay

/-!
# A batch is a merge of runs played alone

What a batch returns is what its environments and agents would have done each on its own: the first
of all the episodes that these runs complete, by the round they end in and then by seat. A batch of
one is the run from the command line.
-/

namespace BlindArena
variable {σ α : Type} (E : Engine σ) (A : Agent α) (each : Transition → Transcript) (colours : Bool)

namespace Rollout

/-- The environment at this place of a fleet, played on its own by its agent. -/
def alone (n : Nat) (config : Config) (base : UInt64) (place : Nat) (agent : α) (count : Nat) :
    List Summary :=
  let seed := base + UInt64.ofNat place
  match (Env.make E (config.seeded seed) 0).1 with
  | .error _ => []
  | .ok env => solo E A each colours (UInt64.ofNat n) env agent seed count

/-- The completions of all the environments of a fleet, if each is played on its own. -/
def allAlone (n : Nat) (config : Config) (base : UInt64) (agents : List α) : Set Completion :=
  {c | ∃ agent count, agents[c.seat]? = some agent ∧
    c ∈ schedule c.seat 0 (alone E A each colours n config base c.seat agent count)}

variable {E A each colours}

theorem batch_ok_elim {fleet : Fleet σ} {agents : List α} {episodes : Nat}
    {played : Reply (Fleet σ) (Except Failure (List Summary))} {done : List Summary}
    (h : batch E A colours fleet agents episodes = .ok played) (ha : played.answer = .ok done) :
    ∃ views table reply, agents.length = fleet.size ∧ (fleet.reset E).answer = .ok views ∧
      Table.seats table = List.zipWith seat (fleet.reset E).state.envs (agents.zip views) ∧
      playRounds E A colours episodes table = .ok reply ∧ reply.answer = .ok done := by
  unfold batch at h
  split at h
  · rename_i hagents
    dsimp only at h
    split at h
    · cases h
      cases ha
    · rename_i views hviews
      split at h
      · cases h
      · split at h
        · cases h
        · rename_i reply hreply
          cases h
          exact ⟨views, _, reply, hagents, hviews, rfl, hreply, ha⟩
  · cases h
    cases ha

theorem batch_eq_of_playRounds {fleet : Fleet σ} {agents : List α} {episodes : Nat}
    {views : List View} {table : Table σ α}
    {reply : Reply (Table σ α) (Except Failure (List Summary))}
    (hagents : agents.length = fleet.size) (hviews : (fleet.reset E).answer = .ok views)
    (hseats : table.seats = List.zipWith seat (fleet.reset E).state.envs (agents.zip views))
    (hfew : episodes ≤ Summary.maxKept)
    (hplayed : playRounds E A colours episodes table = .ok reply) :
    ∃ said, batch E A colours fleet agents episodes =
      .ok ⟨reply.answer, reply.state.fleet, said⟩ := by
  rw [batch, dif_pos hagents]
  dsimp only
  split
  · rename_i hfailed
    rw [hfailed] at hviews
    cases hviews
  · rename_i views' hviews'
    obtain rfl : views' = views := Except.ok.inj (hviews'.symm.trans hviews)
    rw [if_neg hfew.not_gt]
    obtain ⟨seats, hne⟩ := table
    subst hseats
    simp only [hplayed]
    exact ⟨_, rfl⟩

theorem batch_of_playRounds {fleet : Fleet σ} {agents : List α} {episodes : Nat} {views : List View}
    {table : Table σ α} {reply : Reply (Table σ α) (Except Failure (List Summary))}
    (hagents : agents.length = fleet.size) (hviews : (fleet.reset E).answer = .ok views)
    (hseats : table.seats = List.zipWith seat (fleet.reset E).state.envs (agents.zip views))
    (hfew : episodes ≤ Summary.maxKept)
    (hplayed : playRounds E A colours episodes table = .ok reply) :
    ∃ played, batch E A colours fleet agents episodes = .ok played ∧
      played.answer = reply.answer := by
  obtain ⟨said, hbatch⟩ := batch_eq_of_playRounds hagents hviews hseats hfew hplayed
  exact ⟨_, hbatch, rfl⟩

theorem rest_seat {stride : UInt64} {env : Env σ} {agent : α} {view : View}
    (h : (env.reset E (some env.seed)).answer = .ok view) (count : Nat) :
    (seat (env.reset E (some env.seed)).state (agent, view)).rest E A each colours stride count =
      solo E A each colours stride env agent env.seed count :=
  Seat.rest_of_reset h count

theorem alone_eq {n : Nat} {config : Config} {base : UInt64} {place : Nat} {env : Env σ}
    (h : (Env.make E (config.seeded (base + UInt64.ofNat place)) 0).1 = .ok env) (agent : α)
    (count : Nat) :
    alone E A each colours n config base place agent count =
      solo E A each colours (UInt64.ofNat n) env agent env.seed count := by
  rw [alone, h, Env.seed_of_make h]

section opening
variable {n : Nat} {config : Config} {base word : UInt64} {fleet : Fleet σ} {agents : List α}
  {views : List View} {table : Table σ α}
  (hmake : (Fleet.make E n (config.seeded base) word).1 = .ok fleet)
  (hagents : agents.length = fleet.size) (hviews : (fleet.reset E).answer = .ok views)
  (hseats : table.seats = List.zipWith seat (fleet.reset E).state.envs (agents.zip views))

include hagents hviews hseats in
theorem getElem?_opening {place : Nat} {agent : α} (h : agents[place]? = some agent) :
    ∃ env view, fleet.envs[place]? = some env ∧
      (env.reset E (some env.seed)).answer = .ok view ∧
      table.seats[place]? = some (seat (env.reset E (some env.seed)).state (agent, view)) := by
  obtain ⟨hlt, -⟩ := List.getElem?_eq_some_iff.1 h
  have henv := List.getElem?_eq_getElem (lt_of_lt_of_eq hlt hagents)
  have hanswers : fleet.envs.map (fun env => (env.reset E none).answer) = views.map .ok := by
    simpa [Function.comp_def] using collect_eq_ok_iff.1 hviews
  obtain ⟨view, hview, hreset⟩ := exists_getElem?_of_map_eq hanswers henv
  refine ⟨_, view, henv, hreset, ?_⟩
  rw [hseats, List.getElem?_zipWith_eq_some]
  refine ⟨_, _, ?_, List.getElem?_zip_eq_some.2 ⟨h, hview⟩, rfl⟩
  simp [Fleet.reset, henv, Env.reset_none]

include hseats in
theorem exists_agent_of_opening {place : Nat} {s : Seat σ α} (h : table.seats[place]? = some s) :
    ∃ agent, agents[place]? = some agent := by
  rw [hseats, List.getElem?_zipWith_eq_some] at h
  obtain ⟨env, ⟨agent, view⟩, -, hzip, -⟩ := h
  exact ⟨agent, (List.getElem?_zip_eq_some.1 hzip).1⟩

include hagents hviews hseats in
/-- Whoever is seated has an environment that was reset. -/
theorem seat_of_opening {s : Seat σ α} (h : s ∈ table.seats) :
    ∃ env agent view, env ∈ fleet.envs ∧ (env.reset E (some env.seed)).answer = .ok view ∧
      s = seat (env.reset E (some env.seed)).state (agent, view) := by
  obtain ⟨place, hplace⟩ := List.mem_iff_getElem?.1 h
  obtain ⟨agent, hagent⟩ := exists_agent_of_opening hseats hplace
  obtain ⟨env, view, henv, hreset, hseat⟩ := getElem?_opening hagents hviews hseats hagent
  exact ⟨env, agent, view, List.mem_of_getElem? henv, hreset,
    Option.some.inj (hplace.symm.trans hseat)⟩

include hagents hviews hseats in
theorem onTime_opening : table.OnTime 0 := by
  intro s hs
  obtain ⟨env, agent, view, -, -, rfl⟩ := seat_of_opening hagents hviews hseats hs
  exact le_rfl

include hagents hviews hseats in
theorem size_opening : table.seats.length = fleet.size := by
  have henvs : (fleet.reset E).state.envs.length = fleet.size := Fleet.size_reset E fleet
  have hlength := Fleet.length_of_reset E hviews
  rw [hseats, List.length_zipWith, List.length_zip, henvs, hagents, hlength]
  omega

include hmake hagents hviews hseats

theorem length_opening : table.seats.length = n :=
  (size_opening hagents hviews hseats).trans (Fleet.make_ok_elim hmake).1

/-- Everyone has ahead what they would play alone. -/
theorem rest_opening {place : Nat} {agent : α} (h : agents[place]? = some agent) :
    ∃ s, table.seats[place]? = some s ∧ s.running.steps = 0 ∧
      ∀ count, s.rest E A each colours table.fleet.stride count =
        alone E A each colours n config base place agent count := by
  obtain ⟨env, view, henv, hreset, hseat⟩ := getElem?_opening hagents hviews hseats h
  have hlength := length_opening hmake hagents hviews hseats
  have hstride : table.fleet.stride = UInt64.ofNat n := by
    simp [Table.fleet, Fleet.stride, Fleet.size, hlength]
  refine ⟨_, hseat, rfl, fun count => ?_⟩
  rw [rest_seat hreset, hstride, alone_eq ((Fleet.make_ok_elim hmake).2 place env henv)]

theorem upcoming_opening :
    table.upcoming E A each colours 0 = allAlone E A each colours n config base agents := by
  ext c
  constructor
  · rintro ⟨s, hs, count, hc⟩
    obtain ⟨agent, hagent⟩ := exists_agent_of_opening hseats hs
    obtain ⟨s', hs', hsteps, hrest⟩ := rest_opening hmake hagents hviews hseats hagent
    obtain rfl := Option.some.inj (hs.symm.trans hs')
    rw [hrest, hsteps] at hc
    exact ⟨agent, count, hagent, hc⟩
  · rintro ⟨agent, count, hagent, hc⟩
    obtain ⟨s, hs, hsteps, hrest⟩ := rest_opening hmake hagents hviews hseats hagent
    refine ⟨s, hs, count, ?_⟩
    rw [hrest, hsteps]
    exact hc

end opening

end Rollout

theorem CommandLine.playFrom_of_solo {env : Env σ} {agent : α} {seed : UInt64} {count : Nat}
    (h : (Rollout.solo E A each false 1 env agent seed count).length = count) :
    (CommandLine.playFrom E A each env agent seed count).1 =
      .ok (Rollout.solo E A each false 1 env agent seed count) := by
  induction count generalizing env agent seed with
  | zero => rfl
  | succ count ih =>
    rw [Rollout.solo] at h ⊢
    cases hepisode : Rollout.episode E A each false env (some seed) agent with
    | error i => simp [hepisode, Rollout.chained] at h
    | ok played =>
      cases hanswer : played.answer with
      | error failure => simp [hepisode, hanswer, Rollout.chained] at h
      | ok summary =>
        simp only [hepisode, hanswer, Rollout.chained, List.length_cons, Nat.add_right_cancel_iff]
          at h ⊢
        simp only [CommandLine.playFrom, hepisode, hanswer, ih h, Except.map]

namespace Rollout
variable {E A} {colours' : Bool} {n : Nat} {config : Config} {base word : UInt64}
  {fleet : Fleet σ} {agents : List α} {episodes : Nat}
  {played : Reply (Fleet σ) (Except Failure (List Summary))} {done : List Summary}

/-- A batch that succeeds returns the first episodes of all that its environments complete when each
is played alone. There is one such list. With one environment this is the run from the command line.
-/
theorem batch_eq_merge (each : Transition → Transcript) (colours : Bool)
    (hmake : (Fleet.make E n (config.seeded base) word).1 = .ok fleet)
    (hbatch : batch E A colours' fleet agents episodes = .ok played)
    (hdone : played.answer = .ok done) :
    (∃! first, FirstOf episodes (allAlone E A each colours n config base agents) first) ∧
      (∀ first, FirstOf episodes (allAlone E A each colours n config base agents) first →
        done = first.map (·.summary)) ∧
      (n = 1 → ∃ env agent, agents = [agent] ∧
        (Env.make E (config.seeded base) word).1 = .ok env ∧
        (CommandLine.playFrom E A each env agent base episodes).1 = .ok done) := by
  obtain ⟨views, table, reply, hagents, hviews, hseats, hplayed, hreply⟩ :=
    batch_ok_elim hbatch hdone
  have hontime := onTime_opening hagents hviews hseats
  obtain ⟨first, hfirst, hmerge⟩ := firstOf_of_playRounds hplayed hreply 0 hontime
  rw [upcoming_opening hmake hagents hviews hseats] at hmerge
  refine ⟨⟨first, hmerge, fun other hother => hother.unique hmerge⟩, ?_, ?_⟩
  · intro other hother
    rw [hother.unique hmerge, hfirst]
  · rintro rfl
    obtain ⟨hsize, hmade⟩ := Fleet.make_ok_elim hmake
    obtain ⟨agent, rfl⟩ := List.length_eq_one_iff.1 (hagents.trans hsize)
    obtain ⟨env, view, henv, hreset, hseat⟩ :=
      getElem?_opening hagents hviews hseats (rfl : [agent][0]? = some agent)
    obtain ⟨only, hone⟩ := List.length_eq_one_iff.1 (length_opening hmake hagents hviews hseats)
    rw [hone] at hseat
    obtain rfl := Option.some.inj hseat
    have hmade : (Env.make E (config.seeded base) 0).1 = .ok env := by
      simpa using hmade 0 env henv
    have hrest : done = Seat.rest E A each false 1 _ episodes ∧ done.length = episodes :=
      rest_of_playRounds hplayed hreply hone
    rw [rest_seat hreset, Env.seed_of_make hmade] at hrest
    obtain ⟨rfl, hlength⟩ := hrest
    exact ⟨env, agent, rfl, hmade, CommandLine.playFrom_of_solo E A each hlength⟩

def brief : Script where
  frames := [{ report := some (.input .blindSelect [⟨1, "select"⟩]) },
    { report := some (.ended (some .gameOver) false) }]

/-- Two environments that complete an episode in every round, with seeds that wrap around. -/
theorem batch_eq_merge_of_brief :
    ∃ fleet played done first,
      (Fleet.make brief.engine 2 (Config.seeded {} 0xffffffffffffffff) 0).1 = .ok fleet ∧
      batch brief.engine Player.agent false fleet [.first, .first] 3 = .ok played ∧
      played.answer = .ok done ∧ done.map (·.seed) = [0xffffffffffffffff, 0, 1] ∧
      FirstOf 3 (allAlone brief.engine Player.agent (fun _ => []) false 2 {} 0xffffffffffffffff
        [.first, .first]) first ∧
      done = first.map (·.summary) := by
  obtain ⟨fleet, views, table, once, twice, ended, ended', hmake, hagents, hviews, hseats, honce,
      hended, htwice, hended', hlength, hlength', hseeds⟩ :
      ∃ fleet views, ∃ table : Table Nat Player, ∃ once twice, ∃ ended ended' : List Summary,
        (Fleet.make brief.engine 2 (Config.seeded {} 0xffffffffffffffff) 0).1 = .ok fleet ∧
        [Player.first, .first].length = fleet.size ∧
        (fleet.reset brief.engine).answer = .ok views ∧
        table.seats = List.zipWith seat (fleet.reset brief.engine).state.envs
          ([Player.first, .first].zip views) ∧
        table.round brief.engine Player.agent = .ok once ∧ once.answer = .ok ended ∧
        once.state.round brief.engine Player.agent = .ok twice ∧ twice.answer = .ok ended' ∧
        ended.length = 2 ∧ ended'.length = 2 ∧
        (ended ++ ended').map (·.seed) = [0xffffffffffffffff, 0, 1, 2] :=
    ⟨_, _, ⟨[_, _], by simp⟩, _, _, _, _, rfl, rfl, rfl, rfl, rfl, rfl, rfl, rfl, rfl, rfl,
      by decide⟩
  obtain ⟨later, hlater, hrest⟩ : ∃ later,
      playRounds brief.engine Player.agent false 1 once.state = .ok later ∧
        later.answer = .ok (ended'.take 1 ++ []) :=
    playRounds_of_round (by omega) htwice hended' (by rw [hlength', playRounds]; rfl) rfl
  obtain ⟨reply, hreply, hdone⟩ : ∃ reply,
      playRounds brief.engine Player.agent false 3 table = .ok reply ∧
        reply.answer = .ok (ended.take 3 ++ (ended'.take 1 ++ [])) :=
    playRounds_of_round (by omega) honce hended (by rw [hlength]; exact hlater) hrest
  obtain ⟨played, hbatch, hanswer⟩ :=
    batch_of_playRounds hagents hviews hseats (by decide) hreply
  rw [hdone] at hanswer
  obtain ⟨⟨first, hfirst, -⟩, hmerge, -⟩ :=
    batch_eq_merge (fun _ => []) false hmake hbatch hanswer
  refine ⟨fleet, played, _, first, hmake, hbatch, hanswer, ?_, hfirst, hmerge first hfirst⟩
  have htake : ended.take 3 ++ (ended'.take 1 ++ []) = (ended ++ ended').take 3 := by
    simp [List.take_append, hlength]
  rw [htake, List.map_take, hseeds]
  rfl

end Rollout
end BlindArena
