import BlindArena.Proofs.Rollout.Bonuses
import BlindArena.Proofs.Rollout.Shown
import BlindArena.Proofs.Sandbox.Offering

/-!
# Legal choices pass

The players that choose among the legal indices of the view they are shown are never replaced unless
there are none. For every view that is shown lists what the tracker holds, also after the reset
between two episodes. Over the sandbox no view of an episode is without legal indices, so nothing is
ever replaced.
-/

namespace BlindArena

namespace Player

/-- The player takes a legal index if there is one. -/
def Tame : Player → Prop
  | fish _ => True
  | first => True
  | noise _ => False
  | cycle _ _ => False

theorem Tame.choose {player : Player} (h : player.Tame) (legal : List Index) :
    (choose legal player).2.Tame ∧ (legal ≠ [] → (choose legal player).1 ∈ legal) := by
  cases player with
  | fish g =>
    refine ⟨trivial, fun hlegal => ?_⟩
    obtain ⟨index, hindex, hchoice⟩ := Generator.choose?_mem g hlegal
    simpa [Player.choose, hchoice] using hindex
  | first =>
    refine ⟨trivial, fun hlegal => ?_⟩
    rw [Player.choose, List.headD_eq_head?_getD, List.head?_eq_some_head hlegal, Option.getD_some]
    exact List.head_mem hlegal
  | noise g => cases h
  | cycle actions turn => cases h

end Player

/-- The choice from a view is replaced just when nothing is legal in it, and then by 0; the last
view of its transition tells. -/
structure View.Respected (view last : View) : Prop where
  remapped_iff : last.info.remapped = true ↔ view.info.valid = []
  effective : view.info.valid = [] → last.info.effective = some 0

theorem View.Respected.remapped_eq {view last : View} (h : view.Respected last) :
    last.info.remapped = view.bare := by
  rw [Bool.eq_iff_iff, h.remapped_iff, View.bare, List.isEmpty_iff]

/-- Every choice made in what was played is respected, and its summary counts the views in which
nothing was legal. -/
structure Played.Spared {σ α : Type} (view : View) (played : Played σ α) : Prop where
  respected : Rollout.Throughout View.Respected view played.transitions
  remaps : ∀ s, played.answer = .ok s →
    s.remaps = (Rollout.shown view played.transitions).countP View.bare

/-- Every choice made at a seat is respected, and the summary of each episode that ends there counts
the views in which nothing was legal. -/
structure Seat.Spared {σ α : Type} (stride : UInt64) (seat : Seat σ α)
    (transitions : List Transition) : Prop where
  respected : Rollout.Throughout View.Respected seat.view transitions
  remaps : ∀ e ∈ Rollout.episodes stride seat.running [] seat.view transitions,
    e.1.remaps = e.2.countP View.bare

namespace Rollout
variable {σ α : Type} {E : Engine σ} {A : Agent α}

theorem respected_of_step {env : Env σ} {view : View} {action : Index}
    {reply : Reply (Env σ) (Except Failure Transition)} {transition : Transition}
    (hvalid : view.info.valid = env.tracker.legal)
    (hlegal : view.info.valid ≠ [] → action ∈ view.info.valid)
    (hstep : env.step E action = .ok reply) (hanswer : reply.answer = .ok transition) :
    view.Respected transition.view := by
  obtain ⟨session, report, turn, -, -, -, rfl, -⟩ := Env.step_ok_elim hstep hanswer
  constructor
  · show (Resolution.resolve action env.tracker.legal).remapped = true ↔ _
    rw [Resolution.remapped_resolve, decide_eq_true_eq, ← hvalid]
    refine ⟨fun hillegal => ?_, fun hnone => by simp [hnone]⟩
    by_contra hsome
    exact hillegal (hlegal hsome)
  · intro hnone
    show some (Resolution.resolve action env.tracker.legal).effective = some 0
    rcases Resolution.effective_resolve action env.tracker.legal with hmem | ⟨-, hzero⟩
    · rw [← hvalid, hnone] at hmem
      cases hmem
    · rw [hzero]

variable (E) in
theorem respected_law : Law E Player.agent
    (fun env player view => player.Tame ∧ view.info.valid = env.tracker.legal) View.Respected where
  made := fun ⟨htame, hvalid⟩ hstep hanswer =>
    respected_of_step hvalid (htame.choose _).2 hstep hanswer
  goes := fun ⟨htame, _⟩ hstep hanswer _ =>
    ⟨(htame.choose _).1, (Env.shows_of_step hstep hanswer).1.valid⟩
  renewed := fun ⟨htame, _⟩ hopening =>
    ⟨(htame.choose _).1, (Env.shows_of_reset hopening).1.valid⟩

variable (A) in
theorem offering_law : Law Sandbox.engine A
    (fun env _ view => Sandbox.Offering env ∧ view.info.valid = env.tracker.legal)
    (fun view _ => view.bare = false) where
  made := fun ⟨hoffering, hvalid⟩ _ _ => by
    rw [View.bare, hvalid, List.isEmpty_eq_false_iff]
    exact hoffering.legal_ne_nil
  goes := fun ⟨hoffering, _⟩ hstep hanswer hgoes =>
    ⟨hoffering.step hstep hanswer hgoes, (Env.shows_of_step hstep hanswer).1.valid⟩
  renewed := fun _ hopening =>
    ⟨Sandbox.offering_reset _ _, (Env.shows_of_reset hopening).1.valid⟩

section episodes
variable {each : Transition → Transcript} {colours : Bool} {seed : Option UInt64} {view : View}

theorem spared_of_episode {env : Env σ} {player : Player} {played : Played σ Player}
    (htame : player.Tame) (hopening : (env.reset E seed).answer = .ok view)
    (hplayed : episode E Player.agent each colours env seed player = .ok played) :
    played.Spared view := by
  have hrespected := (respected_law E).of_episode hopening
    ⟨htame, (Env.shows_of_reset hopening).1.valid⟩ hplayed
  refine ⟨hrespected, fun s hs => ?_⟩
  obtain ⟨passed, last, -, hupshot⟩ := upshot_of_episode each colours hopening player
  rw [hplayed] at hupshot
  obtain ⟨reply, transition, said, -, -, -, rfl, rfl⟩ := hupshot.ended_elim hs
  rw [Summary.remaps_foldl, Nat.zero_add]
  exact countP_remapped (hrespected.imp fun h => h.remapped_eq)

theorem offered_of_episode {env : Env Sandbox} {agent : α} {played : Played Sandbox α}
    (hopening : (env.reset Sandbox.engine seed).answer = .ok view)
    (hplayed : episode Sandbox.engine A each colours env seed agent = .ok played) :
    ∀ v ∈ shown view played.transitions, v.bare = false :=
  ((offering_law A).of_episode hopening
    ⟨Sandbox.offering_reset env seed, (Env.shows_of_reset hopening).1.valid⟩ hplayed).forall_shown

end episodes

section rounds
variable {wanted left : Nat} {rounds : List (List Transition)} {done : List Summary}
  {views : List View} {place : Nat}

theorem spared_of_rounds {fleet : Fleet σ} {players : List Player} {table last : Table σ Player}
    {seat : Seat σ Player} (hopened : Opened E fleet players views table)
    (hrounds : Rounds E Player.agent wanted table rounds done left last)
    (hseat : table.seats[place]? = some seat) (htame : seat.agent.Tame) :
    seat.Spared table.fleet.stride (column place rounds) := by
  obtain ⟨hrunning, env, seed, henv, hopening⟩ := hopened.seat (List.mem_of_getElem? hseat)
  have hvalid : seat.view.info.valid = seat.env.tracker.legal := by
    rw [henv]
    exact (Env.shows_of_reset hopening).1.valid
  have hrespected := (respected_law E).of_rounds hrounds hseat ⟨htame, hvalid⟩
  exact ⟨hrespected, remaps_of_episodes (hrespected.imp fun h => h.remapped_eq)
    (by rw [hrunning]; rfl)⟩

theorem offered_of_rounds {fleet : Fleet Sandbox} {agents : List α} {table last : Table Sandbox α}
    {seat : Seat Sandbox α} (hopened : Opened Sandbox.engine fleet agents views table)
    (hrounds : Rounds Sandbox.engine A wanted table rounds done left last)
    (hseat : table.seats[place]? = some seat) :
    ∀ v ∈ shown seat.view (column place rounds), v.bare = false := by
  obtain ⟨-, env, seed, henv, hopening⟩ := hopened.seat (List.mem_of_getElem? hseat)
  refine ((offering_law A).of_rounds hrounds hseat ?_).forall_shown
  rw [henv]
  exact ⟨Sandbox.offering_reset env seed, (Env.shows_of_reset hopening).1.valid⟩

end rounds

/-- Every choice of a tame player is respected, in an episode and at a place of a fleet, and each
summary counts the views of its episode in which nothing was legal. Over the sandbox there are none.
-/
theorem tame_choices_pass (E : Engine σ) (each : Transition → Transcript) (colours : Bool) :
    (∀ (env : Env σ) seed (player : Player) view, player.Tame →
      (env.reset E seed).answer = .ok view →
      let opened := (env.reset E seed).state
      let result := episode E Player.agent each colours env seed player
      ∃ passed last, Onward E Player.agent ⟨opened, player, view⟩ passed last ∧
        Upshot E Player.agent { seed := opened.seed } passed last result ∧
        Throughout View.Respected view passed ∧
        ∀ played, result = .ok played → played.Spared view) ∧
    (∀ (fleet : Fleet σ) players wanted views (table : Table σ Player),
      Opened E fleet players views table →
      let result := verdict (batch E Player.agent colours fleet players wanted)
      Summary.maxKept < wanted ∧ result = .error .capacity ∨
      ∃ rounds done left last, Rounds E Player.agent wanted table rounds done left last ∧
        Halt E Player.agent wanted done left last result ∧
        (∀ (place : Nat) seat, table.seats[place]? = some seat → seat.agent.Tame →
          seat.Spared table.fleet.stride (column place rounds)) ∧
        ∀ s, s ∈ done ↔ ∃ (place : Nat) (seat : Seat σ Player), table.seats[place]? = some seat ∧
          s ∈ (episodes table.fleet.stride seat.running [] seat.view (column place rounds)).map
            (·.1)) ∧
    (∀ (env : Env Sandbox) seed (player : Player) view played,
      (env.reset Sandbox.engine seed).answer = .ok view →
      episode Sandbox.engine Player.agent each colours env seed player = .ok played →
      (∀ v ∈ shown view played.transitions, v.bare = false) ∧
        ∀ s, played.answer = .ok s → player.Tame → s.remaps = 0) ∧
    ∀ (fleet : Fleet Sandbox) players wanted views (table last : Table Sandbox Player) rounds done
      left, Opened Sandbox.engine fleet players views table →
      Rounds Sandbox.engine Player.agent wanted table rounds done left last →
      ∀ (place : Nat) seat, table.seats[place]? = some seat →
        (∀ v ∈ shown seat.view (column place rounds), v.bare = false) ∧
        (seat.agent.Tame → ∀ e ∈ episodes table.fleet.stride seat.running [] seat.view
          (column place rounds), e.1.remaps = 0) := by
  refine ⟨?_, ?_, ?_, ?_⟩
  · intro env seed player view htame hopening opened result
    obtain ⟨passed, last, honward, hupshot⟩ := upshot_of_episode each colours hopening player
    have hpassed := (respected_law E).of_onward honward
      ⟨htame, (Env.shows_of_reset hopening).1.valid⟩
    exact ⟨passed, last, honward, hupshot, hpassed.2.1,
      fun played hplayed => spared_of_episode htame hopening hplayed⟩
  · intro fleet players wanted views table hopened result
    refine (hopened.exists_rounds colours wanted).imp_right ?_
    rintro ⟨rounds, done, left, last, hrounds, hhalt⟩
    exact ⟨rounds, done, left, last, hrounds, hhalt,
      fun place seat hseat htame => spared_of_rounds hopened hrounds hseat htame,
      hrounds.mem_done_iff hopened.seeded⟩
  · intro env seed player view played hopening hplayed
    have hoffered := offered_of_episode hopening hplayed
    refine ⟨hoffered, fun s hs htame => ?_⟩
    rw [(spared_of_episode htame hopening hplayed).remaps s hs, List.countP_eq_zero]
    exact fun v hv => by simp [hoffered v hv]
  · intro fleet players wanted views table last rounds done left hopened hrounds place seat hseat
    have hoffered := offered_of_rounds hopened hrounds hseat
    refine ⟨hoffered, fun htame e he => ?_⟩
    have hprefix := episodes_prefix table.fleet.stride seat.running [] seat.view
      (column place rounds)
    rw [(spared_of_rounds hopened hrounds hseat htame).remaps e he, List.countP_eq_zero]
    intro v hv
    have hshown : v ∈ shown seat.view (column place rounds) :=
      hprefix.subset (List.mem_flatMap_of_mem he hv)
    simp [hoffered v hshown]

def pausing : Script where
  frames := [{ report := some (.input .blindSelect [⟨1, "select"⟩, ⟨2, "skip"⟩]) },
    { report := some (.progressed (some .playing)) },
    { report := some (.input .playing [⟨0, "play"⟩]) }]

/-- An episode and a batch of two steps, of which the second is taken without an offer, and two
steps over the sandbox. -/
theorem tame_choices_pass_of_pausing :
    (∃ env view played s,
      (Env.make pausing.engine { budget := 2 } 3).1 = .ok env ∧
      (env.reset pausing.engine (some 3)).answer = .ok view ∧
      episode pausing.engine Player.agent (fun _ => []) false env (some 3)
        (.fish (.seeded 5)) = .ok played ∧
      played.answer = .ok s ∧ s.remaps = 1 ∧
      (shown view played.transitions).countP View.bare = 1) ∧
    (∃ fleet played done,
      (Fleet.make pausing.engine 1 (Config.seeded { budget := 2 } 3) 0).1 = .ok fleet ∧
      batch pausing.engine Player.agent false fleet [.first] 1 = .ok played ∧
      played.answer = .ok done ∧ done.map (·.remaps) = [1] ∧
      ∀ s ∈ done, ∃ views : List View, s.remaps = views.countP View.bare) ∧
    (∃ env played s, (Env.make Sandbox.engine { budget := 2 } 3).1 = .ok env ∧
      episode Sandbox.engine Player.agent (fun _ => []) false env (some 3)
        (.fish (.seeded 5)) = .ok played ∧
      played.answer = .ok s ∧ s.steps = 2 ∧ s.remaps = 0) ∧
    ∃ fleet views, ∃ table last : Table Sandbox Player, ∃ rounds done left,
      (Fleet.make Sandbox.engine 2 (Config.seeded { budget := 1 } 3) 0).1 = .ok fleet ∧
      Opened Sandbox.engine fleet [.first, .noise (.seeded 5)] views table ∧
      Rounds Sandbox.engine Player.agent 2 table rounds done left last ∧
      done.map (·.remaps) = [0, 1] ∧
      ∀ (place : Nat) seat, table.seats[place]? = some seat →
        ∀ v ∈ shown seat.view (column place rounds), v.bare = false := by
  refine ⟨?_, ?_, ?_, ?_⟩
  · obtain ⟨env, view, once, twice, first, second, hmake, hopening, honce, hfirst, hgoes, htwice,
        hsecond, hends, hremaps⟩ :
        ∃ env view, ∃ once twice : Reply (Env Nat) (Except Failure Transition), ∃ first second,
          (Env.make pausing.engine { budget := 2 } 3).1 = .ok env ∧
          (env.reset pausing.engine (some 3)).answer = .ok view ∧
          (env.reset pausing.engine (some 3)).state.step pausing.engine
            (Player.agent.act (.fish (.seeded 5)) view).1 = .ok once ∧
          once.answer = .ok first ∧ first.terminated = false ∧
          once.state.step pausing.engine
            (Player.agent.act (Player.agent.act (.fish (.seeded 5)) view).2 first.view).1 =
              .ok twice ∧
          twice.answer = .ok second ∧ second.terminated = true ∧
          ((Summary.absorb { seed := 3 } first).absorb second).remaps = 1 :=
      ⟨_, _, _, _, _, _, rfl, rfl, rfl, rfl, rfl, rfl, rfl, rfl, rfl⟩
    obtain ⟨played, hplayed, hanswer, -⟩ := episode_of_steps (fun _ => []) false hopening honce
      hfirst hgoes htwice hsecond hends
    obtain ⟨hspared, -⟩ := tame_choices_pass pausing.engine (fun _ => []) false
    obtain ⟨_, _, -, -, -, hepisode⟩ :=
      hspared env (some 3) (.fish (.seeded 5)) view trivial hopening
    refine ⟨env, view, played, _, hmake, hopening, hplayed, hanswer, hremaps, ?_⟩
    rw [← (hepisode played hplayed).remaps _ hanswer, hremaps]
  · obtain ⟨fleet, views, table, once, twice, ended, hmake, hopened, hfirst, honce, hgoes, htwice,
        hends, hlength, hremaps⟩ :
        ∃ fleet views, ∃ table : Table Nat Player, ∃ once twice, ∃ ended : List Summary,
          (Fleet.make pausing.engine 1 (Config.seeded { budget := 2 } 3) 0).1 = .ok fleet ∧
          Opened pausing.engine fleet [Player.first] views table ∧
          table.seats.map (·.agent) = [.first] ∧
          table.round pausing.engine Player.agent = .ok once ∧ once.answer = .ok [] ∧
          once.state.round pausing.engine Player.agent = .ok twice ∧ twice.answer = .ok ended ∧
          ended.length = 1 ∧ (ended.take 1).map (·.remaps) = [1] :=
      ⟨_, _, ⟨[_], by simp⟩, _, _, _, rfl, ⟨rfl, rfl, rfl⟩, rfl, rfl, rfl, rfl, rfl, rfl, rfl⟩
    obtain ⟨later, hlater, hrest⟩ : ∃ later,
        playRounds pausing.engine Player.agent false 1 once.state = .ok later ∧
          later.answer = .ok (ended.take 1 ++ []) :=
      playRounds_of_round (by omega) htwice hends (by rw [hlength, playRounds]; rfl) rfl
    obtain ⟨reply, hreply, hdone⟩ : ∃ reply,
        playRounds pausing.engine Player.agent false 1 table = .ok reply ∧
          reply.answer = .ok (List.take 1 [] ++ (ended.take 1 ++ [])) :=
      playRounds_of_round (by omega) honce hgoes hlater hrest
    obtain ⟨played, hbatch, hanswer⟩ :=
      batch_of_playRounds hopened.length hopened.answer hopened.seats (by decide) hreply
    rw [hdone, List.take_nil, List.nil_append, List.append_nil] at hanswer
    refine ⟨fleet, played, _, hmake, hbatch, hanswer, hremaps, fun s hs => ?_⟩
    obtain ⟨-, htable, -⟩ := tame_choices_pass pausing.engine (fun _ => []) false
    rcases htable fleet [.first] 1 views table hopened with
      ⟨hmany, -⟩ | ⟨rounds, done, left, last, -, hhalt, hspared, hended⟩
    · exact absurd hmany (by decide)
    · rw [hbatch, verdict, hanswer] at hhalt
      obtain ⟨-, hkept⟩ := hhalt.of_ok rfl
      rw [hkept] at hs
      obtain ⟨place, seat, hseat, hmem⟩ := (hended s).1 (List.mem_of_mem_take hs)
      obtain ⟨e, he, rfl⟩ := List.mem_map.1 hmem
      have htame : seat.agent.Tame := by
        have hagent := List.mem_map_of_mem (f := (·.agent)) (List.mem_of_getElem? hseat)
        rw [hfirst, List.mem_singleton] at hagent
        rw [hagent]
        trivial
      exact ⟨e.2, (hspared place seat hseat htame).remaps e he⟩
  · obtain ⟨env, view, once, twice, first, second, hmake, hopening, honce, hfirst, hgoes, htwice,
        hsecond, hends, hsteps⟩ :
        ∃ env view, ∃ once twice : Reply (Env Sandbox) (Except Failure Transition), ∃ first second,
          (Env.make Sandbox.engine { budget := 2 } 3).1 = .ok env ∧
          (env.reset Sandbox.engine (some 3)).answer = .ok view ∧
          (env.reset Sandbox.engine (some 3)).state.step Sandbox.engine
            (Player.agent.act (.fish (.seeded 5)) view).1 = .ok once ∧
          once.answer = .ok first ∧ first.terminated = false ∧
          once.state.step Sandbox.engine
            (Player.agent.act (Player.agent.act (.fish (.seeded 5)) view).2 first.view).1 =
              .ok twice ∧
          twice.answer = .ok second ∧ second.terminated = true ∧
          ((Summary.absorb { seed := 3 } first).absorb second).steps = 2 :=
      ⟨_, _, _, _, _, _, rfl, rfl, rfl, rfl, rfl, rfl, rfl, rfl, rfl⟩
    obtain ⟨played, hplayed, hanswer, -⟩ := episode_of_steps (fun _ => []) false hopening honce
      hfirst hgoes htwice hsecond hends
    obtain ⟨-, -, hsandbox, -⟩ := tame_choices_pass Sandbox.engine (fun _ => []) false
    obtain ⟨-, hnone⟩ := hsandbox env (some 3) (.fish (.seeded 5)) view played hopening hplayed
    exact ⟨env, played, _, hmake, hplayed, hanswer, hsteps, hnone _ hanswer trivial⟩
  · obtain ⟨fleet, views, table, reply, transitions, hmake, hopened, hround, hstep, hremaps⟩ :
        ∃ fleet views, ∃ table : Table Sandbox Player, ∃ reply transitions,
          (Fleet.make Sandbox.engine 2 (Config.seeded { budget := 1 } 3) 0).1 = .ok fleet ∧
          Opened Sandbox.engine fleet [.first, .noise (.seeded 5)] views table ∧
          table.round Sandbox.engine Player.agent = .ok reply ∧
          verdict (table.fleet.step Sandbox.engine (table.choices Player.agent)) =
            .ok (.ok transitions) ∧
          (table.ended transitions).map (·.remaps) = [0, 1] :=
      ⟨_, _, ⟨[_, _], by simp⟩, _, _, rfl, ⟨rfl, rfl, rfl⟩, rfl, rfl, rfl⟩
    have hrounds : Rounds Sandbox.engine Player.agent 2 table [transitions] _ _ _ :=
      .round (by omega) hround hstep (.start _ _)
    obtain ⟨-, -, -, htables⟩ := tame_choices_pass Sandbox.engine (fun _ => []) false
    refine ⟨fleet, views, table, _, _, _, _, hmake, hopened, hrounds, by simpa using hremaps, ?_⟩
    exact fun place seat hseat =>
      (htables _ _ _ _ table _ _ _ _ hopened hrounds place seat hseat).1

end Rollout
end BlindArena
