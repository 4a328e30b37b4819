import BlindArena.Proofs.Fleet.Moments
import BlindArena.Proofs.Rollout.Course
import BlindArena.Proofs.Rollout.Ways

/-!
# What agents are shown

An agent chooses from the opening view, and then from the view that each transition hands out, which
is a new episode's first one where the transition ends an episode. What holds whenever an agent is
to choose, and is kept by steps and by the resets between episodes, holds throughout an episode and
throughout a batch, and with it whatever follows for a view and the step taken from it.
-/

namespace BlindArena

def View.bare (view : View) : Bool := view.info.valid.isEmpty

namespace Rollout

/-- The views from which transitions in a row were made. -/
def shown : View → List Transition → List View
  | _, [] => []
  | view, t :: transitions => view :: shown t.view transitions

/-- Whatever relates a view to the last view of the transition that was made from it. -/
def Throughout (Q : View → View → Prop) (opening : View) (transitions : List Transition) : Prop :=
  List.Forall₂ (fun view t => Q view t.last) (shown opening transitions) transitions

/-- The episodes that end among the transitions at a place of a fleet, each by its summary and the
views shown in it. The present one is summed up so far and was shown these views. -/
def episodes (stride : UInt64) :
    Summary → List View → View → List Transition → List (Summary × List View)
  | _, _, _, [] => []
  | running, past, view, t :: transitions =>
    let total := running.absorb t
    if t.terminated then
      (total, past ++ [view]) ::
        episodes stride { seed := total.seed + stride } [] t.view transitions
    else episodes stride total (past ++ [view]) t.view transitions

/-- The transitions at one place of a fleet, round by round. -/
def column (place : Nat) (rounds : List (List Transition)) : List Transition :=
  rounds.filterMap (·[place]?)

section lists
variable {Q R : View → View → Prop} {stride : UInt64} {running : Summary} {past : List View}
  {view : View} {transitions : List Transition}

theorem throughout_cons {t : Transition} :
    Throughout Q view (t :: transitions) ↔ Q view t.last ∧ Throughout Q t.view transitions :=
  List.forall₂_cons

theorem Throughout.imp (himp : ∀ {view last}, Q view last → R view last)
    (h : Throughout Q view transitions) : Throughout R view transitions :=
  List.Forall₂.imp (fun _ _ hq => himp hq) h

theorem Throughout.forall_shown {P : View → Prop}
    (h : Throughout (fun view _ => P view) view transitions) :
    ∀ v ∈ shown view transitions, P v := by
  induction transitions generalizing view with
  | nil => simp [shown]
  | cons t transitions ih =>
    rw [throughout_cons] at h
    rw [shown]
    exact List.forall_mem_cons.2 ⟨h.1, ih h.2⟩

theorem map_fst_episodes (stride : UInt64) (running : Summary) (past past' : List View)
    (view view' : View) (transitions : List Transition) :
    (episodes stride running past view transitions).map (·.1) =
      (episodes stride running past' view' transitions).map (·.1) := by
  induction transitions generalizing running past past' view view' with
  | nil => rfl
  | cons t transitions ih =>
    rw [episodes, episodes]
    split
    · exact congrArg (List.cons _) (ih _ _ _ _ _)
    · exact ih _ _ _ _ _

theorem episodes_prefix (stride : UInt64) (running : Summary) (past : List View) (view : View)
    (transitions : List Transition) :
    (episodes stride running past view transitions).flatMap (·.2) <+:
      past ++ shown view transitions := by
  induction transitions generalizing running past view with
  | nil => exact List.nil_prefix
  | cons t transitions ih =>
    rw [episodes, shown]
    have hsplit : past ++ view :: shown t.view transitions =
        (past ++ [view]) ++ shown t.view transitions := by simp
    rw [hsplit]
    split
    · rw [List.flatMap_cons, List.prefix_append_right_inj]
      simpa using ih { seed := (running.absorb t).seed + stride } [] t.view
    · exact ih _ _ _

theorem countP_remapped (h : Throughout (fun view last => last.info.remapped = view.bare) view
    transitions) :
    transitions.countP (·.last.info.remapped) = (shown view transitions).countP View.bare := by
  induction transitions generalizing view with
  | nil => rfl
  | cons t transitions ih =>
    rw [throughout_cons] at h
    rw [shown, List.countP_cons, List.countP_cons, ih h.2, h.1]

/-- If a choice is replaced just when nothing is legal, a summary counts the views in which nothing
is. -/
theorem remaps_of_episodes
    (h : Throughout (fun view last => last.info.remapped = view.bare) view transitions)
    (hrunning : running.remaps = past.countP View.bare) :
    ∀ e ∈ episodes stride running past view transitions, e.1.remaps = e.2.countP View.bare := by
  induction transitions generalizing running past view with
  | nil => simp [episodes]
  | cons t transitions ih =>
    rw [throughout_cons] at h
    have htotal : (running.absorb t).remaps = (past ++ [view]).countP View.bare := by
      rw [Summary.absorb, hrunning, List.countP_append, List.countP_singleton, h.1]
    rw [episodes]
    split
    · exact List.forall_mem_cons.2 ⟨htotal, ih h.2 rfl⟩
    · exact ih h.2 htotal

end lists

variable {σ α : Type} {E : Engine σ} {A : Agent α}

/-- What holds of environment, agent and view whenever the agent is to choose, and what then relates
the view to the one that the step hands out. -/
structure Law (E : Engine σ) (A : Agent α) (J : Env σ → α → View → Prop) (Q : View → View → Prop) :
    Prop where
  made : ∀ {env agent view reply} {transition : Transition}, J env agent view →
    env.step E (A.act agent view).1 = .ok reply → reply.answer = .ok transition →
    Q view transition.view
  goes : ∀ {env agent view reply} {transition : Transition}, J env agent view →
    env.step E (A.act agent view).1 = .ok reply → reply.answer = .ok transition →
    transition.terminated = false → J reply.state (A.act agent view).2 transition.view
  renewed : ∀ {env agent view seed opening} {later : Env σ}, J env agent view →
    (later.reset E seed).answer = .ok opening →
    J (later.reset E seed).state (A.act agent view).2 opening

theorem upshot_of_episode (each : Transition → Transcript) (colours : Bool) {env : Env σ}
    {seed : Option UInt64} {view : View} (hopening : (env.reset E seed).answer = .ok view)
    (agent : α) :
    ∃ passed last, Onward E A ⟨(env.reset E seed).state, agent, view⟩ passed last ∧
      Upshot E A { seed := (env.reset E seed).state.seed } passed last
        (episode E A each colours env seed agent) := by
  rcases episode_ends (E := E) (A := A) each colours env seed agent with
    ⟨failure, hfailure, -⟩ | ⟨view', passed, last, hopening', -, -, honward, -, hupshot, -⟩
  · rw [hopening] at hfailure
    cases hfailure
  · obtain rfl := Except.ok.inj (hopening'.symm.trans hopening)
    exact ⟨passed, last, honward, hupshot⟩

namespace Law
variable {J : Env σ → α → View → Prop} {Q : View → View → Prop}

/-! ## Episodes -/

theorem of_onward (h : Law E A J Q) {stage last : Stage σ α} {passed : List Transition}
    (honward : Onward E A stage passed last) (hstage : J stage.env stage.agent stage.view) :
    J last.env last.agent last.view ∧ Throughout Q stage.view passed ∧
      ∀ transition, shown stage.view (passed ++ [transition]) =
        shown stage.view passed ++ [last.view] := by
  induction honward with
  | start => exact ⟨hstage, .nil, fun _ => rfl⟩
  | step hstep hanswer hgoes _ ih =>
    obtain ⟨hlast, hlater, hconcat⟩ := ih (h.goes hstage hstep hanswer hgoes)
    refine ⟨hlast, .cons ?_ hlater, fun transition => ?_⟩
    · rw [Env.last_of_step hstep hanswer]
      exact h.made hstage hstep hanswer
    · exact congrArg (List.cons _) (hconcat transition)

theorem of_upshot (h : Law E A J Q) {stage last : Stage σ α} {passed : List Transition}
    {summary : Summary} {played : Played σ α} (honward : Onward E A stage passed last)
    (hstage : J stage.env stage.agent stage.view)
    (hupshot : Upshot E A summary passed last (.ok played)) :
    Throughout Q stage.view played.transitions := by
  obtain ⟨hlast, hpassed, hconcat⟩ := h.of_onward honward hstage
  cases hupshot with
  | failed => exact hpassed
  | @ended reply transition said hstep hanswer =>
    show Throughout Q stage.view (passed ++ [transition])
    rw [Throughout, hconcat]
    refine List.rel_append hpassed (.cons ?_ .nil)
    rw [Env.last_of_step hstep hanswer]
    exact h.made hlast hstep hanswer

theorem of_episode (h : Law E A J Q) {each : Transition → Transcript} {colours : Bool} {env : Env σ}
    {seed : Option UInt64} {agent : α} {view : View} {played : Played σ α}
    (hopening : (env.reset E seed).answer = .ok view)
    (hfair : J (env.reset E seed).state agent view)
    (hplayed : episode E A each colours env seed agent = .ok played) :
    Throughout Q view played.transitions := by
  obtain ⟨passed, last, honward, hupshot⟩ := upshot_of_episode each colours hopening agent
  rw [hplayed] at hupshot
  exact h.of_upshot honward hfair hupshot

/-! ## Batches -/

theorem of_advance (h : Law E A J Q) {stride : UInt64} {seat : Seat σ α}
    {reply : Reply (Env σ) (Except Failure Transition)} {transition : Transition}
    (hseat : J seat.env seat.agent seat.view)
    (hadvance : Fleet.advance E stride seat.env (seat.choice A) = .ok reply)
    (hanswer : reply.answer = .ok transition) :
    Q seat.view transition.last ∧
      J reply.state (A.act seat.agent seat.view).2 transition.view := by
  obtain ⟨stepped, made, hstep, hmade, hrest⟩ := Fleet.advance_ok_elim hadvance hanswer
  have hview := h.made hseat hstep hmade
  cases hends : made.terminated with
  | true =>
    rw [hends, if_pos rfl] at hrest
    obtain ⟨opening, hopening, rfl, hstate⟩ := hrest
    rw [Transition.last_renewed, hstate]
    exact ⟨hview, h.renewed hseat hopening⟩
  | false =>
    rw [hends, if_neg (by simp)] at hrest
    obtain ⟨rfl, hstate⟩ := hrest
    rw [Env.last_of_step hstep hmade, hstate]
    exact ⟨hview, h.goes hseat hstep hmade hends⟩

end Law
end Rollout

namespace Seat
variable {σ α : Type} {E : Engine σ} {A : Agent α} {stride : UInt64} {seat : Seat σ α}

theorem state_of_play {played : Reply (Seat σ α) (Except Failure (Option Summary))}
    {advanced : Reply (Env σ) (Except Failure Transition)} {transition : Transition}
    (hplay : seat.play E A stride = .ok played)
    (hadvance : Fleet.advance E stride seat.env (seat.choice A) = .ok advanced)
    (hanswer : advanced.answer = .ok transition) :
    played.state = ⟨advanced.state, (A.act seat.agent seat.view).2, transition.view,
      if transition.terminated then { seed := advanced.state.seed }
      else seat.running.absorb transition⟩ := by
  rw [choice] at hadvance
  simp only [play, hadvance, Except.map, Except.ok.injEq] at hplay
  subst hplay
  simp only [hanswer]
  split <;> rfl

end Seat

namespace Table
variable {σ α : Type} {E : Engine σ} {A : Agent α} {table : Table σ α}
  {reply : Reply (Table σ α) (Except Failure (List Summary))} {transitions : List Transition}

theorem seat_of_round (hround : table.round E A = .ok reply)
    (hstep : verdict (table.fleet.step E (table.choices A)) = .ok (.ok transitions)) {place : Nat}
    {seat : Seat σ α} (hseat : table.seats[place]? = some seat) :
    ∃ advanced transition, transitions[place]? = some transition ∧
      Fleet.advance E table.fleet.stride seat.env (seat.choice A) = .ok advanced ∧
      advanced.answer = .ok transition ∧
      reply.state.seats[place]? = some ⟨advanced.state, (A.act seat.agent seat.view).2,
        transition.view, if transition.terminated then { seed := advanced.state.seed }
          else seat.running.absorb transition⟩ := by
  have hanswer := answer_of_round hround hstep
  obtain ⟨ends, -, -, -, -, hplays⟩ := round_ok_elim hround hanswer
  obtain ⟨played, now, hplay, -, -, hstate⟩ := hplays place seat hseat
  cases hfleet : table.fleet.step E (table.choices A) with
  | error i => simp [hfleet, verdict] at hstep
  | ok stepped =>
    have htransitions : stepped.answer = .ok transitions := by simpa [hfleet, verdict] using hstep
    obtain ⟨hlength, hadvances⟩ := Fleet.advances_of_step hfleet htransitions
    have hplace : place < transitions.length := by
      rw [hlength, fleet, Fleet.size, List.length_map]
      exact (List.getElem?_eq_some_iff.1 hseat).1
    have htransition := List.getElem?_eq_getElem hplace
    obtain ⟨env, action, advanced, henv, haction, -, hadvance, hmade⟩ :=
      hadvances place _ htransition
    obtain rfl : seat.env = env := by simpa [fleet, hseat] using henv
    obtain rfl : seat.choice A = action := by simpa [choices, hseat] using haction
    exact ⟨advanced, _, htransition, hadvance, hmade,
      by rw [hstate, Seat.state_of_play hplay hadvance hmade]⟩

theorem mem_ended_iff {s : Summary} : s ∈ table.ended transitions ↔
    ∃ (place : Nat) (seat : Seat σ α) (transition : Transition), table.seats[place]? = some seat ∧
      transitions[place]? = some transition ∧ seat.ended transition = some s := by
  rw [ended, List.mem_filterMap]
  constructor
  · rintro ⟨now, hnow, rfl⟩
    obtain ⟨place, hplace⟩ := List.mem_iff_getElem?.1 hnow
    exact ⟨place, List.getElem?_zipWith_eq_some.1 hplace⟩
  · rintro ⟨place, hplace⟩
    exact ⟨some s, List.mem_of_getElem? (List.getElem?_zipWith_eq_some.2 hplace), rfl⟩

end Table

namespace Rollout
variable {σ α : Type} {E : Engine σ} {A : Agent α} {wanted left : Nat} {table last : Table σ α}
  {rounds : List (List Transition)} {done : List Summary}

theorem column_cons {place : Nat} {transitions : List Transition} {transition : Transition}
    (h : transitions[place]? = some transition) (rounds : List (List Transition)) :
    column place (transitions :: rounds) = transition :: column place rounds :=
  List.filterMap_cons_some h

theorem Law.of_rounds {J : Env σ → α → View → Prop} {Q : View → View → Prop} (h : Law E A J Q)
    (hrounds : Rounds E A wanted table rounds done left last) {place : Nat} {seat : Seat σ α}
    (hseat : table.seats[place]? = some seat) (hfair : J seat.env seat.agent seat.view) :
    Throughout Q seat.view (column place rounds) := by
  induction hrounds generalizing seat with
  | start => exact .nil
  | round _ hround hstep _ ih =>
    obtain ⟨advanced, transition, htransition, hadvance, hanswer, hnext⟩ :=
      Table.seat_of_round hround hstep hseat
    obtain ⟨hmade, hlater⟩ := h.of_advance hfair hadvance hanswer
    rw [column_cons htransition]
    exact .cons hmade (ih hnext hlater)

theorem episodes_of_round {reply : Reply (Table σ α) (Except Failure (List Summary))}
    {transitions : List Transition} (hround : table.round E A = .ok reply)
    (hstep : verdict (table.fleet.step E (table.choices A)) = .ok (.ok transitions)) {place : Nat}
    {seat : Seat σ α} (hseat : table.seats[place]? = some seat) (hseeded : seat.Seeded) :
    ∃ transition next, transitions[place]? = some transition ∧
      reply.state.seats[place]? = some next ∧ ∀ rounds,
      let later := episodes table.fleet.stride next.running [] next.view (column place rounds)
      (episodes table.fleet.stride seat.running [] seat.view
          (column place (transitions :: rounds))).map (·.1) =
        (seat.ended transition).toList ++ later.map (·.1) := by
  obtain ⟨advanced, transition, htransition, hadvance, hmade, hnext⟩ :=
    Table.seat_of_round hround hstep hseat
  refine ⟨transition, _, htransition, hnext, fun rounds => ?_⟩
  rw [column_cons htransition, episodes, Seat.ended]
  dsimp only
  split
  · rename_i hends
    have hseed : advanced.state.seed =
        (seat.running.absorb transition).seed + table.fleet.stride := by
      obtain ⟨-, stepped, -, -, hrenewed⟩ := (Fleet.told_of_advance hadvance hmade).renewed hends
      rw [hrenewed, Env.seed_reset]
      exact congrArg (· + table.fleet.stride) hseeded.symm
    rw [List.map_cons, hseed]
    rfl
  · exact map_fst_episodes ..

theorem Rounds.mem_done_iff (h : Rounds E A wanted table rounds done left last)
    (hseeded : table.Seeded) (s : Summary) :
    s ∈ done ↔ ∃ (place : Nat) (seat : Seat σ α), table.seats[place]? = some seat ∧
      s ∈ (episodes table.fleet.stride seat.running [] seat.view (column place rounds)).map
        (·.1) := by
  induction h with
  | start => simp [column, episodes]
  | @round _ _ table last reply transitions rounds done hwanted hround hstep _ ih =>
    have hanswer := Table.answer_of_round hround hstep
    obtain ⟨-, -, hstride, -, hlength, -⟩ := Table.round_ok_elim hround hanswer
    have hlater := ih (Table.seeds_of_round hseeded hround hanswer).2
    rw [hstride] at hlater
    -- at its seat an episode that ends in this round comes before those of the rest
    have hseat {place : Nat} {seat : Seat σ α} (hseat : table.seats[place]? = some seat) :=
      episodes_of_round hround hstep hseat (hseeded seat (List.mem_of_getElem? hseat))
    rw [List.mem_append, hlater]
    constructor
    · rintro (hnow | ⟨place, next, hnext, hmem⟩)
      · obtain ⟨place, seat, transition, hplace, htransition, hends⟩ := Table.mem_ended_iff.1 hnow
        obtain ⟨_, next, htransition', -, hepisodes⟩ := hseat hplace
        obtain rfl := Option.some.inj (htransition.symm.trans htransition')
        refine ⟨place, seat, hplace, ?_⟩
        rw [hepisodes, hends]
        exact List.mem_cons_self
      · have hlt : place < table.seats.length :=
          hlength ▸ (List.getElem?_eq_some_iff.1 hnext).1
        have hplace := List.getElem?_eq_getElem hlt
        obtain ⟨transition, next', -, hnext', hepisodes⟩ := hseat hplace
        obtain rfl := Option.some.inj (hnext.symm.trans hnext')
        refine ⟨place, _, hplace, ?_⟩
        rw [hepisodes]
        exact List.mem_append_right _ hmem
    · rintro ⟨place, seat, hplace, hmem⟩
      obtain ⟨transition, next, htransition, hnext, hepisodes⟩ := hseat hplace
      rw [hepisodes] at hmem
      rcases List.mem_append.1 hmem with hnow | hmem
      · exact Or.inl (Table.mem_ended_iff.2
          ⟨place, seat, transition, hplace, htransition, Option.mem_toList.1 hnow⟩)
      · exact Or.inr ⟨place, next, hnext, hmem⟩

namespace Opened
variable {fleet : Fleet σ} {agents : List α} {views : List View}

/-- A batch wants more summaries than there is room for, or plays rounds to the end. -/
theorem exists_rounds (h : Opened E fleet agents views table) (colours : Bool) (wanted : Nat) :
    let result := verdict (batch E A colours fleet agents wanted)
    Summary.maxKept < wanted ∧ result = .error .capacity ∨
      ∃ rounds done left last, Rounds E A wanted table rounds done left last ∧
        Halt E A wanted done left last result := by
  intro result
  rcases verdict_batch (E := E) (A := A) colours wanted h.length with
    ⟨failure, hfailure, -⟩ | ⟨views', hviews', hfull | ⟨table', hseats', hbatch⟩⟩
  · rw [h.answer] at hfailure
    cases hfailure
  · exact Or.inl hfull
  · obtain rfl := Except.ok.inj (hviews'.symm.trans h.answer)
    have hseats := h.seats.trans hseats'.symm
    obtain ⟨seats, hne⟩ := table
    obtain ⟨seats', hne'⟩ := table'
    obtain rfl : seats = seats' := hseats
    simp only [result, hbatch]
    exact Or.inr (rounds_of_playRounds colours wanted _)

end Opened
end Rollout
end BlindArena
