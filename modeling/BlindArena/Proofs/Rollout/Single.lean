import BlindArena.Proofs.Rollout.Batch
import BlindArena.Proofs.Rollout.Course
import BlindArena.Proofs.Rollout.Passes

/-!
# A batch of one resets once more

With one environment a batch plays the episodes that the run from the command line plays. But an
environment is reset in the step that ends its episode, also where no further episode is wanted. So
the batch needs one reset more than it has episodes, and if that one fails, all of them are lost.
-/

namespace BlindArena
variable {σ α : Type} {E : Engine σ} {A : Agent α} {each : Transition → Transcript}
  {colours colours' : Bool}

namespace Rollout.Stage

/-- A seat in the middle of an episode, with its totals so far. -/
def seat (stage : Stage σ α) (s : Summary) : Seat σ α where
  env := stage.env
  agent := stage.agent
  view := stage.view
  running := s

variable {stride : UInt64} {stage : Stage σ α} {s : Summary}
  {stepped : Reply (Env σ) (Except Failure Transition)} {transition : Transition}

theorem play_of_goes (h : stage.step E A = .ok stepped) (ha : stepped.answer = .ok transition)
    (hgoes : transition.terminated = false) :
    ∃ reply, (stage.seat s).play E A stride = .ok reply ∧ reply.answer = .ok none ∧
      reply.state = (stage.next A stepped.state transition).seat (s.absorb transition) := by
  rw [step] at h
  simp [Seat.play, Fleet.advance, seat, next, h, Except.map, ha, hgoes]

theorem play_of_ends (h : stage.step E A = .ok stepped) (ha : stepped.answer = .ok transition)
    (hends : transition.terminated = true) :
    let renewed := stepped.state.reset E (some (stepped.state.seed + stride))
    ∃ reply, (stage.seat s).play E A stride = .ok reply ∧
      match renewed.answer with
      | .error failure => reply.answer = .error failure
      | .ok opening =>
        reply.answer = .ok (some (s.absorb transition)) ∧
          reply.state = ⟨renewed.state, (A.act stage.agent stage.view).2, opening,
            { seed := renewed.state.seed }⟩ := by
  intro renewed
  have hterminal : transition.terminal = none := Env.terminal_of_step h ha
  rw [step] at h
  simp only [Seat.play, Fleet.advance, seat, h]
  refine ⟨_, rfl, ?_⟩
  cases hopening : renewed.answer with
  | error failure => simp [renewed, ha, hends, hopening, Except.map]
  | ok opening =>
    have hmade : (transition.renewed opening).terminated = true := hends
    have hview : (transition.renewed opening).view = opening := rfl
    have htotal := Summary.absorb_renewed hterminal s opening
    simp [renewed, ha, hends, hopening, Except.map, hmade, htotal, hview]

end Rollout.Stage

namespace Table
variable {table : Table σ α} {seat : Seat σ α}
  {played : Reply (Seat σ α) (Except Failure (Option Summary))}

theorem round_of_play (hseats : table.seats = [seat]) (h : seat.play E A 1 = .ok played) :
    ∃ reply, table.round E A = .ok reply ∧ reply.answer = played.answer.map Option.toList ∧
      reply.state.seats = [played.state] := by
  have hstride : table.fleet.stride = 1 := by simp [fleet, Fleet.stride, Fleet.size, hseats]
  have hplays : gather (table.seats.map (Seat.play E A table.fleet.stride)) = .ok [played] := by
    rw [gather_eq_ok_iff, hseats, hstride, List.map_singleton, h]
    rfl
  unfold round
  split
  · rename_i hfailed
    rw [hfailed] at hplays
    cases hplays
  · rename_i replies hreplies
    obtain rfl : replies = [played] := Except.ok.inj (hreplies.symm.trans hplays)
    refine ⟨_, rfl, ?_, rfl⟩
    rcases hanswer : played.answer with failure | now
    · simp [collect, hanswer, Except.map]
    · cases now <;> simp [collect, hanswer, Except.map]

end Table

theorem CommandLine.playFrom_succ_elim {env : Env σ} {agent : α} {seed : UInt64} {count : Nat}
    {done : List Summary} (h : (playFrom E A each env agent seed (count + 1)).1 = .ok done) :
    ∃ played total rest, Rollout.episode E A each false env (some seed) agent = .ok played ∧
      played.answer = .ok total ∧
      (playFrom E A each played.env played.agent (seed + 1) count).1 = .ok rest ∧
      done = total :: rest := by
  rw [playFrom] at h
  cases hepisode : Rollout.episode E A each false env (some seed) agent with
  | error i => simp [hepisode] at h
  | ok played =>
    cases hanswer : played.answer with
    | error failure => simp [hepisode, hanswer] at h
    | ok total =>
      simp only [hepisode, hanswer] at h
      cases hrest : (playFrom E A each played.env played.agent (seed + 1) count).1 with
      | error stop => simp [hrest, Except.map] at h
      | ok rest =>
        simp only [hrest, Except.map, Except.ok.injEq] at h
        exact ⟨played, total, rest, rfl, hanswer, hrest, h.symm⟩

theorem CommandLine.playFrom_one (each : Transition → Transcript) {env : Env σ} {agent : α}
    {seed : UInt64} {view : View} {reply : Reply (Env σ) (Except Failure Transition)}
    {transition : Transition} (hopening : (env.reset E (some seed)).answer = .ok view)
    (hstep : (env.reset E (some seed)).state.step E (A.act agent view).1 = .ok reply)
    (hanswer : reply.answer = .ok transition) (hends : transition.terminated = true) :
    (playFrom E A each env agent seed 1).1 = .ok [Summary.absorb { seed := seed } transition] := by
  simp only [playFrom, Rollout.episode, hopening, Env.seed_reset]
  rw [Rollout.playOn_of_step hstep hanswer, if_pos hends]
  rfl

theorem CommandLine.count_eq_zero_of_playFrom {env : Env σ} {agent : α} {seed : UInt64}
    {count : Nat} {done : List Summary} {failure : Failure}
    (h : (playFrom E A each env agent seed count).1 = .ok done)
    (hopening : (env.reset E (some seed)).answer = .error failure) : count = 0 := by
  cases count with
  | zero => rfl
  | succ count =>
    obtain ⟨played, _, _, hplayed, hanswer, -, -⟩ := playFrom_succ_elim h
    simp only [Rollout.episode, hopening, Except.ok.injEq] at hplayed
    subst hplayed
    cases hanswer

theorem Fleet.make_one {config : Config} {base word : UInt64} {env : Env σ}
    (h : (Env.make E (config.seeded base) word).1 = .ok env) :
    ∃ fleet, (make E 1 (config.seeded base) word).1 = .ok fleet ∧ fleet.envs = [env] := by
  have hmade : (Env.make E ((config.seeded base).seeded base) 0).1 = .ok env := h
  have hbase : (config.seeded base).seedOr word = base := rfl
  cases hfirst : Env.make E ((config.seeded base).seeded base) 0 with
  | mk made said =>
    rw [hfirst] at hmade
    obtain rfl : made = .ok env := hmade
    refine ⟨⟨[env], by simp⟩, ?_, rfl⟩
    simp [make, hbase, makeFrom, hfirst, Except.map]

namespace Rollout
variable {table : Table σ α} {wanted : Nat}

theorem verdict_playRounds {reply : Reply (Table σ α) (Except Failure (List Summary))}
    (hwanted : 0 < wanted) (h : table.round E A = .ok reply) :
    verdict (playRounds E A colours wanted table) =
      match reply.answer with
      | .error failure => .ok (.error failure)
      | .ok ended =>
        (verdict (playRounds E A colours (wanted - ended.length) reply.state)).map
          (Except.map (ended.take wanted ++ ·)) := by
  rw [playRounds, dif_neg hwanted.ne']
  split
  · rename_i hround
    rw [hround] at h
    cases h
  · rename_i reply' hround
    obtain rfl : reply' = reply := Except.ok.inj (hround.symm.trans h)
    split
    · rename_i failure hanswer
      simp only [hanswer, verdict]
    · rename_i ended hanswer
      simp only [hanswer]
      cases playRounds E A colours (wanted - ended.length) reply'.state <;> rfl

variable {stage last : Stage σ α} {passed : List Transition} {s : Summary}

theorem verdict_playRounds_of_onward (colours : Bool) (h : Onward E A stage passed last)
    (hseats : table.seats = [stage.seat s]) (hwanted : 0 < wanted) :
    ∃ next : Table σ α, next.seats = [last.seat (passed.foldl Summary.absorb s)] ∧
      verdict (playRounds E A colours wanted table) =
        verdict (playRounds E A colours wanted next) := by
  induction h generalizing table s with
  | start => exact ⟨table, hseats, rfl⟩
  | step hstep hanswer hgoes later ih =>
    obtain ⟨played, hplay, hnone, hstate⟩ := Stage.play_of_goes hstep hanswer hgoes
    obtain ⟨reply, hround, hreply, hafter⟩ := Table.round_of_play hseats hplay
    rw [hstate] at hafter
    obtain ⟨next, hnext, hverdict⟩ := ih hafter
    refine ⟨next, hnext, ?_⟩
    -- the step ends nothing, so its round adds no summary to those of the rest
    rw [verdict_playRounds hwanted hround, hreply, hnone, ← hverdict]
    simp only [Except.map, Option.toList_none, List.length_nil, Nat.sub_zero, List.take_nil,
      List.nil_append]
    rcases verdict (playRounds E A colours wanted reply.state) with cause | failure | done <;> rfl

theorem verdict_playRounds_of_ends (colours : Bool) (wanted : Nat)
    {reply : Reply (Env σ) (Except Failure Transition)} {transition : Transition}
    (hstep : last.step E A = .ok reply)
    (hanswer : reply.answer = .ok transition) (hends : transition.terminated = true)
    (hseats : table.seats = [last.seat s]) :
    let renewed := reply.state.reset E (some (reply.state.seed + 1))
    match renewed.answer with
    | .error failure =>
      verdict (playRounds E A colours (wanted + 1) table) = .ok (.error failure)
    | .ok opening =>
      ∃ next : Table σ α,
        next.seats = [⟨renewed.state, (A.act last.agent last.view).2, opening,
          { seed := renewed.state.seed }⟩] ∧
        verdict (playRounds E A colours (wanted + 1) table) =
          (verdict (playRounds E A colours wanted next)).map
            (Except.map (s.absorb transition :: ·)) := by
  intro renewed
  obtain ⟨played, hplay, hended⟩ := Stage.play_of_ends hstep hanswer hends
  obtain ⟨after, hround, hafter, hlast⟩ := Table.round_of_play hseats hplay
  rw [verdict_playRounds (Nat.succ_pos wanted) hround, hafter]
  cases hopening : renewed.answer with
  | error failure =>
    rw [hopening] at hended
    rw [hended]
    rfl
  | ok opening =>
    rw [hopening] at hended
    obtain ⟨hended, hstate⟩ := hended
    rw [hstate] at hlast
    refine ⟨after.state, hlast, ?_⟩
    simp [hended, Except.map]

/-- An episode that is played to its end is a row of rounds, the last of which fails if the reset
does that comes with it. -/
theorem verdict_playRounds_of_playOn (colours : Bool) (wanted : Nat) {env : Env σ} {agent : α}
    {view : View} {played : Played σ α} {total : Summary}
    (hplayed : playOn E A each colours' env agent view s = .ok played)
    (htotal : played.answer = .ok total) (hseats : table.seats = [⟨env, agent, view, s⟩]) :
    played.env.config = env.config ∧
    let renewed := played.env.reset E (some (env.seed + 1))
    match renewed.answer with
    | .error failure =>
      verdict (playRounds E A colours (wanted + 1) table) = .ok (.error failure)
    | .ok opening =>
      ∃ next : Table σ α,
        next.seats = [⟨renewed.state, played.agent, opening, { seed := renewed.state.seed }⟩] ∧
        verdict (playRounds E A colours (wanted + 1) table) =
          (verdict (playRounds E A colours wanted next)).map (Except.map (total :: ·)) := by
  obtain ⟨passed, last, honward, hupshot⟩ :=
    upshot_of_playOn (E := E) (A := A) each colours' env agent view s
  rw [hplayed] at hupshot
  obtain ⟨reply, transition, said, hstep, hanswer, hends, rfl, rfl⟩ := hupshot.ended_elim htotal
  obtain ⟨hconfig, hseed⟩ := Env.kept_of_step hstep
  rw [honward.kept.1] at hconfig
  rw [honward.kept.2] at hseed
  refine ⟨hconfig, ?_⟩
  obtain ⟨table', hseats', hverdict⟩ :=
    verdict_playRounds_of_onward colours honward hseats (Nat.succ_pos wanted)
  have hended := verdict_playRounds_of_ends colours wanted hstep hanswer hends hseats'
  rw [hseed] at hended
  rw [hverdict, List.foldl_append]
  exact hended

/-- What comes of a batch of one whose episodes succeed: what the reset answers that comes with the
last of them. -/
theorem verdict_playRounds_of_playFrom {env : Env σ} {agent : α} {seed : UInt64} {count : Nat}
    {done : List Summary} {view : View}
    (hdone : (CommandLine.playFrom E A each env agent seed count).1 = .ok done)
    (hopening : (env.reset E (some seed)).answer = .ok view)
    (hseats : table.seats = [⟨(env.reset E (some seed)).state, agent, view, { seed := seed }⟩]) :
    verdict (playRounds E A colours count table) =
      .ok ((env.reset E (some (seed + UInt64.ofNat count))).answer.map fun _ => done) := by
  induction count generalizing env agent seed done view table with
  | zero =>
    cases hdone
    have hseed : seed + UInt64.ofNat 0 = seed := UInt64.add_zero seed
    rw [hseed, hopening, playRounds]
    rfl
  | succ count ih =>
    obtain ⟨played, total, rest, hplayed, htotal, hrest, rfl⟩ :=
      CommandLine.playFrom_succ_elim hdone
    simp only [episode, hopening, Env.seed_reset] at hplayed
    cases hrow : playOn E A each false (env.reset E (some seed)).state agent view
        { seed := seed } with
    | error i => simp [hrow] at hplayed
    | ok row =>
      simp only [hrow, Except.ok.injEq] at hplayed
      subst hplayed
      obtain ⟨hconfig, hrenewed⟩ :=
        verdict_playRounds_of_playOn colours count hrow htotal hseats
      rw [Env.config_reset] at hconfig
      simp only [Env.seed_reset] at hrenewed hrest
      rw [Fleet.seed_succ, ← Env.answer_reset hconfig]
      cases hnext : (row.env.reset E (some (seed + 1))).answer with
      | error failure =>
        rw [hnext] at hrenewed
        -- an episode after this one would begin with the same reset
        obtain rfl := CommandLine.count_eq_zero_of_playFrom hrest hnext
        have hseed : seed + 1 + UInt64.ofNat 0 = seed + 1 := UInt64.add_zero _
        rw [hseed, hnext]
        exact hrenewed
      | ok opening =>
        rw [hnext] at hrenewed
        obtain ⟨next, hseats', hverdict⟩ := hrenewed
        rw [hverdict, ih hrest hnext hseats']
        cases (row.env.reset E (some (seed + 1 + UInt64.ofNat count))).answer <;> rfl

theorem playFrom_of_playRounds {env : Env σ} {agent : α} {seed : UInt64} {count : Nat}
    {done : List Summary} {view : View} (each : Transition → Transcript)
    (hopening : (env.reset E (some seed)).answer = .ok view)
    (hseats : table.seats = [⟨(env.reset E (some seed)).state, agent, view, { seed := seed }⟩])
    (h : verdict (playRounds E A colours count table) = .ok (.ok done)) :
    (CommandLine.playFrom E A each env agent seed count).1 = .ok done := by
  cases hplayed : playRounds E A colours count table with
  | error i =>
    rw [hplayed] at h
    cases h
  | ok played =>
    rw [hplayed] at h
    have hrest : done = Seat.rest E A each false 1 _ count ∧ done.length = count :=
      rest_of_playRounds hplayed (Except.ok.inj h) hseats
    have hopened : Seat.rest E A each false 1
        ⟨(env.reset E (some seed)).state, agent, view, { seed := seed }⟩ count =
          solo E A each false 1 env agent seed count := by
      have hfresh : _ = solo E A each false 1 env agent seed count :=
        Seat.rest_of_reset hopening count
      rwa [Env.seed_reset] at hfresh
    rw [hopened] at hrest
    obtain ⟨rfl, hlength⟩ := hrest
    exact CommandLine.playFrom_of_solo E A each hlength

section one
variable (each : Transition → Transcript) (colours : Bool) {config : Config} {base word : UInt64}
  {env : Env σ} (agent : α) {episodes : Nat}
  (hmake : (Env.make E (config.seeded base) word).1 = .ok env)
  (hfew : episodes ≤ Summary.maxKept)

include hmake hfew

/-- Episodes that succeed leave it to one more reset what a batch of them answers. -/
theorem verdict_batch_of_one :
    ∃ fleet, (Fleet.make E 1 (config.seeded base) word).1 = .ok fleet ∧
      let single := (CommandLine.playFrom E A each env agent base episodes).1
      let ahead := (env.reset E (some (base + UInt64.ofNat episodes))).answer
      let result := verdict (batch E A colours fleet [agent] episodes)
      ∀ done, (single = .ok done → result = .ok (ahead.map fun _ => done)) ∧
        (result = .ok (.ok done) → single = .ok done) := by
  obtain ⟨fleet, hfleet, henvs⟩ := Fleet.make_one hmake
  have hseed : env.seed = base := Env.seed_of_make hmake
  have hagents : [agent].length = fleet.size := by
    rw [Fleet.size, henvs]
    rfl
  have hreset : (fleet.reset E).answer = (env.reset E (some base)).answer.map ([·]) := by
    simp only [Fleet.reset, henvs, List.map_singleton, Env.reset_none, hseed]
    cases (env.reset E (some base)).answer <;> rfl
  refine ⟨fleet, hfleet, ?_⟩
  intro single ahead result done
  rcases verdict_batch (E := E) (A := A) colours episodes hagents with
    ⟨failure, hfailure, hresult⟩ | ⟨views, hviews, ⟨hmany, -⟩ | ⟨table, hseats, hresult⟩⟩
  · rw [hreset] at hfailure
    have hopening := map_eq_error_iff.1 hfailure
    constructor
    · intro hsingle
      obtain rfl := CommandLine.count_eq_zero_of_playFrom hsingle hopening
      have hbase : base + UInt64.ofNat 0 = base := UInt64.add_zero base
      simp only [result, ahead, hbase, hopening, hresult]
      rfl
    · intro hdone
      simp only [result, hresult] at hdone
      cases hdone
  · exact absurd hmany hfew.not_gt
  · rw [hreset] at hviews
    obtain ⟨view, hopening, rfl⟩ := map_eq_ok_iff.1 hviews
    have hseated : table.seats =
        [⟨(env.reset E (some base)).state, agent, view, { seed := base }⟩] := by
      simp [hseats, Fleet.reset, henvs, Env.reset_none, hseed, seat]
    constructor
    · intro hsingle
      simp only [result, hresult]
      exact verdict_playRounds_of_playFrom hsingle hopening hseated
    · intro hdone
      simp only [result, hresult] at hdone
      exact playFrom_of_playRounds each hopening hseated hdone

/-- A batch of one succeeds just when the episodes do and one reset more than there are episodes. It
then returns what the run from the command line returns. If only that reset fails, so does it. -/
theorem batch_of_one :
    ∃ fleet, (Fleet.make E 1 (config.seeded base) word).1 = .ok fleet ∧
      let single := (CommandLine.playFrom E A each env agent base episodes).1
      let ahead := (env.reset E (some (base + UInt64.ofNat episodes))).answer
      let result := verdict (batch E A colours fleet [agent] episodes)
      ∀ done, (result = .ok (.ok done) ↔ single = .ok done ∧ ∃ view, ahead = .ok view) ∧
        ∀ failure, single = .ok done → ahead = .error failure → result = .ok (.error failure) := by
  obtain ⟨fleet, hfleet, hmain⟩ :=
    verdict_batch_of_one (A := A) each colours agent hmake hfew
  refine ⟨fleet, hfleet, ?_⟩
  intro single ahead result done
  have hforth : single = .ok done → result = .ok (ahead.map fun _ => done) := (hmain done).1
  have hback : result = .ok (.ok done) → single = .ok done := (hmain done).2
  refine ⟨⟨fun hdone => ?_, ?_⟩, ?_⟩
  · have hsingle := hback hdone
    rw [hforth hsingle, Except.ok.injEq] at hdone
    obtain ⟨view, hahead, -⟩ := map_eq_ok_iff.1 hdone
    exact ⟨hsingle, view, hahead⟩
  · rintro ⟨hsingle, view, hahead⟩
    rw [hforth hsingle, hahead]
    rfl
  · intro failure hsingle hahead
    rw [hforth hsingle, hahead]
    rfl

end one

/-- Every first step ends the run, and there is no engine for one of the seeds. -/
def lacking : Script := { brief with refused := [6] }

theorem batch_of_one_of_lacking :
    ∃ env fleet done,
      (Env.make lacking.engine (Config.seeded {} 4) 0).1 = .ok env ∧
      (Fleet.make lacking.engine 1 (Config.seeded {} 4) 0).1 = .ok fleet ∧
      (CommandLine.playFrom lacking.engine Player.agent (fun _ => []) env .first 4 1).1 =
        .ok done ∧
      done.map (·.seed) = [4] ∧
      verdict (batch lacking.engine Player.agent false fleet [.first] 1) = .ok (.ok done) := by
  obtain ⟨env, view, reply, transition, next, hmake, hopening, hstep, hanswer, hends, hahead⟩ :
      ∃ env view, ∃ reply : Reply (Env Nat) (Except Failure Transition), ∃ transition next,
        (Env.make lacking.engine (Config.seeded {} 4) 0).1 = .ok env ∧
        (env.reset lacking.engine (some 4)).answer = .ok view ∧
        (env.reset lacking.engine (some 4)).state.step lacking.engine
          (Player.agent.act .first view).1 = .ok reply ∧
        reply.answer = .ok transition ∧ transition.terminated = true ∧
        (env.reset lacking.engine (some (4 + UInt64.ofNat 1))).answer = .ok next :=
    ⟨_, _, _, _, _, rfl, rfl, rfl, rfl, rfl, rfl⟩
  have hsingle := CommandLine.playFrom_one (fun _ => []) hopening hstep hanswer hends
  obtain ⟨fleet, hfleet, hmain⟩ := batch_of_one (E := lacking.engine) (A := Player.agent)
    (fun _ => []) false .first hmake (by decide : 1 ≤ Summary.maxKept)
  exact ⟨env, fleet, _, hmake, hfleet, hsingle, rfl, (hmain _).1.2 ⟨hsingle, next, hahead⟩⟩

/-- Playing one by one succeeds and a batch of one does not: the only episode wanted has ended, and
is lost with the reset to a seed that no episode plays. -/
theorem not_batch_of_one :
    ∃ env fleet done,
      (Env.make lacking.engine (Config.seeded {} 5) 0).1 = .ok env ∧
      (Fleet.make lacking.engine 1 (Config.seeded {} 5) 0).1 = .ok fleet ∧
      (CommandLine.playFrom lacking.engine Player.agent (fun _ => []) env .first 5 1).1 =
        .ok done ∧
      done.map (·.seed) = [5] ∧
      verdict (batch lacking.engine Player.agent false fleet [.first] 1) =
        .ok (.error (.unavailable 6 .red .white "no engine for seed 6")) := by
  obtain ⟨env, view, reply, transition, hmake, hopening, hstep, hanswer, hends, hahead⟩ :
      ∃ env view, ∃ reply : Reply (Env Nat) (Except Failure Transition), ∃ transition,
        (Env.make lacking.engine (Config.seeded {} 5) 0).1 = .ok env ∧
        (env.reset lacking.engine (some 5)).answer = .ok view ∧
        (env.reset lacking.engine (some 5)).state.step lacking.engine
          (Player.agent.act .first view).1 = .ok reply ∧
        reply.answer = .ok transition ∧ transition.terminated = true ∧
        (env.reset lacking.engine (some (5 + UInt64.ofNat 1))).answer =
          .error (.unavailable 6 .red .white "no engine for seed 6") :=
    ⟨_, _, _, _, rfl, rfl, rfl, rfl, rfl, rfl⟩
  have hsingle := CommandLine.playFrom_one (fun _ => []) hopening hstep hanswer hends
  obtain ⟨fleet, hfleet, hmain⟩ := verdict_batch_of_one (A := Player.agent) (fun _ => []) false
    .first hmake (by decide : 1 ≤ Summary.maxKept)
  have hlost := (hmain _).1 hsingle
  rw [hahead] at hlost
  exact ⟨env, fleet, _, hmake, hfleet, hsingle, rfl, hlost⟩

end Rollout
end BlindArena
