import BlindArena.Proofs.Env.Control
import BlindArena.Proofs.Rollout.Batch
import BlindArena.Proofs.Rollout.Calls
import BlindArena.Proofs.Rollout.Course
import BlindArena.Proofs.Tracker.Follow

/-!
# Bonuses and blinds

The tracker pays a completion bonus with the round end of a blind; a summary counts the blind when
the episode ends by it. Within an episode no blind is finished before its last turn, so there is at
most one bonus, in that turn. It is for the blind that is counted, unless the engine reports the run
finished with this very round end: then the bonus is paid and no blind is counted.
-/

namespace BlindArena

/-- The blind is completed as the run is reported finished, and the run is what the episode ends by.
-/
def Turn.eclipsed (turn : Turn) : Bool :=
  turn.ending = some .finished && turn.tracker.phase = some .roundEnd && turn.tracker.started

/-- The transition tells of this turn. -/
structure Turn.Told (turn : Turn) (transition : Transition) : Prop where
  reward : transition.reward = turn.shaped.total
  ending : transition.ending = turn.ending

namespace Tracker
variable {t followed : Tracker} {report : Report} {read : Option Snapshot} {phase : Option Phase}
  {penalty : Float32} {budget : Nat} {turn : Turn}

/-- The blind of the present cycle has not reached its round end. -/
structure Unfinished (t : Tracker) : Prop where
  finished : t.finished = false
  paid : t.paid = false

theorem unfinished_begin (report : Report) : (begin report).Unfinished := ⟨rfl, rfl⟩

namespace Unfinished

theorem follow (h : t.Unfinished) (hf : Followed t read phase followed) :
    followed.paid = false ∧
      followed.finished = (phase = some .roundEnd && followed.started) := by
  cases hf with
  | opens => exact ⟨rfl, rfl⟩
  | enters => exact ⟨h.paid, h.finished⟩
  | goesOn _ _ hr =>
    rw [hr.eq_with]
    exact ⟨h.paid, h.finished⟩
  | finishes hstarted hr =>
    rw [hr.eq_with]
    exact ⟨h.paid, by simp [hstarted]⟩
  | idles _ _ hend =>
    refine ⟨h.paid, h.finished.trans ?_⟩
    by_cases hphase : phase = some .roundEnd
    · simp [hend hphase]
    · simp [hphase]

theorem of_turn (h : t.Unfinished) (hturn : t.turn report read penalty budget = .ok turn) :
    turn.shaped.paid = (report.phase = some .roundEnd && turn.tracker.started) ∧
      turn.tracker.phase = report.phase ∧
      turn.tracker.finished = turn.shaped.paid ∧ turn.tracker.paid = turn.shaped.paid ∧
      turn.ending = Ending.decide report turn.tracker budget := by
  obtain ⟨seen, shaped, hseen, hshaped, rfl⟩ := turn_eq_ok_iff.1 hturn
  obtain ⟨gains, rfl⟩ := Breakdown.shape_ok_elim hshaped
  obtain ⟨followed, hf, rfl⟩ := followed_of_observe hseen
  have htick : t.tick.Unfinished := ⟨h.finished, h.paid⟩
  obtain ⟨hpaid, hfinished⟩ := htick.follow hf
  have hdue : (followed.arrive report).bonusDue report.phase =
      (report.phase = some .roundEnd && followed.started) := by
    show (report.phase = some .roundEnd && followed.started && followed.finished &&
      !followed.paid) = _
    rw [hpaid, hfinished]
    cases followed.started <;> simp
  rw [Breakdown.paid_ofGains, hdue]
  refine ⟨rfl, rfl, hfinished, ?_, rfl⟩
  show (followed.paid || _) = _
  rw [hpaid, Bool.false_or]

/-- It is paid for the blind that the episode ends by, or for one that is eclipsed. -/
theorem paid_iff (h : t.Unfinished) (hturn : t.turn report read penalty budget = .ok turn) :
    turn.shaped.paid = true ↔ turn.ending = some .blind ∨ turn.eclipsed = true := by
  obtain ⟨hpaid, hphase, -, -, hending⟩ := h.of_turn hturn
  have hblind : turn.ending = some .blind ↔
      report.status ≠ .finished ∧ report.phase = some .roundEnd ∧ turn.tracker.started = true := by
    rw [hending, Ending.decide_eq_blind_iff]
  have hrun : turn.ending = some .finished ↔ report.status = .finished := by
    rw [hending, Ending.decide_eq_finished_iff]
  simp only [hpaid, hblind, Turn.eclipsed, hrun, hphase, Bool.and_eq_true, decide_eq_true_eq]
  tauto

theorem after (h : t.Unfinished) (hturn : t.turn report read penalty budget = .ok turn)
    (hgoes : turn.ending = none) : turn.shaped.paid = false ∧ turn.tracker.Unfinished := by
  have hunpaid : turn.shaped.paid = false := by
    rw [← Bool.not_eq_true, h.paid_iff hturn]
    simp [hgoes, Turn.eclipsed]
  obtain ⟨-, -, hfinished, hpaid, -⟩ := h.of_turn hturn
  exact ⟨hunpaid, hfinished.trans hunpaid, hpaid.trans hunpaid⟩

end Unfinished
end Tracker

variable {σ α : Type} (E : Engine σ) (A : Agent α)

namespace Env

def turn? (env : Env σ) (action : Index) : Option Turn :=
  match env.shares E action, env.step E action with
  | some shaped, .ok ⟨.ok transition, next, _⟩ => some ⟨next.tracker, shaped, transition.ending⟩
  | _, _ => none

variable {E} in
theorem turn?_of_step {env : Env σ} {action : Index}
    {reply : Reply (Env σ) (Except Failure Transition)} {transition : Transition}
    (h : env.step E action = .ok reply) (ha : reply.answer = .ok transition) :
    ∃ report read penalty turn, env.turn? E action = some turn ∧
      env.tracker.turn report read penalty env.config.budget = .ok turn ∧
      turn.Told transition ∧ reply.state.tracker = turn.tracker := by
  obtain ⟨session, report, turn, hsession, hadvanced, hturn, rfl, hstate⟩ := step_ok_elim h ha
  have hshares : env.shares E action = some turn.shaped :=
    shares_of_turn hsession hadvanced hturn
  obtain ⟨answer, next, said⟩ := reply
  obtain rfl := ha
  obtain rfl := hstate
  exact ⟨report, _, _, turn, by rw [turn?, hshares, h], hturn, ⟨rfl, rfl⟩, rfl⟩

end Env

/-! ## Episodes on the books -/

def Turn.earned (turns : List Turn) : Float32 := turns.foldl (· + ·.shaped.total) 0

/-- An episode that has not ended, by its tracker, its summary so far and the turns so far. -/
structure Underway (t : Tracker) (running : Summary) (turns : List Turn) : Prop where
  unfinished : t.Unfinished
  steps : turns.length = running.steps
  reward : Turn.earned turns = running.reward
  blinds : running.blinds = 0
  goes : ∀ turn ∈ turns, turn.ending = none ∧ turn.shaped.paid = false

/-- An episode by its summary and its turns. The bonuses that are paid are the blinds that are
counted, and those that are eclipsed. -/
structure Accounted (s : Summary) (turns : List Turn) : Prop where
  steps : turns.length = s.steps
  reward : Turn.earned turns = s.reward
  blinds : s.blinds = turns.countP (·.ending = some .blind)
  bonuses : turns.countP (·.shaped.paid) = s.blinds + turns.countP (·.eclipsed)
  once : turns.countP (·.shaped.paid) ≤ 1

namespace Underway
variable {t : Tracker} {running : Summary} {turns : List Turn} {report : Report}
  {read : Option Snapshot} {penalty : Float32} {budget : Nat} {turn : Turn}
  {transition : Transition}

theorem of_reset {σ : Type} {E : Engine σ} {env : Env σ} {seed : Option UInt64} {view : View}
    (h : (env.reset E seed).answer = .ok view) :
    Underway (env.reset E seed).state.tracker { seed := (env.reset E seed).state.seed } [] := by
  obtain ⟨session, first, -, hopened⟩ := Env.reset_ok_elim h
  rw [hopened]
  exact ⟨Tracker.unfinished_begin first, rfl, rfl, rfl, by simp⟩

theorem reward_absorb (h : Underway t running turns) (htold : turn.Told transition) :
    Turn.earned (turns ++ [turn]) = (running.absorb transition).reward := by
  rw [Turn.earned, List.foldl_append]
  show Turn.earned turns + turn.shaped.total = running.reward + transition.reward
  rw [h.reward, htold.reward]

theorem steps_absorb (h : Underway t running turns) :
    (turns ++ [turn]).length = (running.absorb transition).steps := by
  rw [List.length_append, h.steps]
  rfl

theorem next (h : Underway t running turns)
    (hturn : t.turn report read penalty budget = .ok turn) (htold : turn.Told transition)
    (hgoes : transition.terminated = false) :
    Underway turn.tracker (running.absorb transition) (turns ++ [turn]) := by
  have hnone : transition.ending = none := by simpa [Transition.terminated] using hgoes
  have hending : turn.ending = none := htold.ending ▸ hnone
  obtain ⟨hunpaid, hunfinished⟩ := h.unfinished.after hturn hending
  refine ⟨hunfinished, h.steps_absorb, h.reward_absorb htold, ?_, ?_⟩
  · rw [Summary.absorb, hnone]
    exact h.blinds
  · intro other hother
    rcases List.mem_append.1 hother with hother | hother
    · exact h.goes other hother
    · rw [List.mem_singleton.1 hother]
      exact ⟨hending, hunpaid⟩

theorem accounted (h : Underway t running turns)
    (hturn : t.turn report read penalty budget = .ok turn) (htold : turn.Told transition) :
    Accounted (running.absorb transition) (turns ++ [turn]) := by
  have hpaid := h.unfinished.paid_iff hturn
  have hunpaid : turns.countP (·.shaped.paid) = 0 :=
    List.countP_eq_zero.2 fun other hother => by simp [(h.goes other hother).2]
  have hblinds : turns.countP (·.ending = some .blind) = 0 :=
    List.countP_eq_zero.2 fun other hother => by simp [(h.goes other hother).1]
  have heclipsed : turns.countP (·.eclipsed) = 0 :=
    List.countP_eq_zero.2 fun other hother => by simp [Turn.eclipsed, (h.goes other hother).1]
  have hcount : (running.absorb transition).blinds =
      if turn.ending = some .blind then 1 else 0 := by
    rw [Summary.absorb, h.blinds, htold.ending, Nat.zero_add]
  refine ⟨h.steps_absorb, h.reward_absorb htold, ?_, ?_, ?_⟩
  · rw [hcount, List.countP_append, hblinds, List.countP_singleton, Nat.zero_add]
    simp only [decide_eq_true_eq]
  · rw [hcount, List.countP_append, List.countP_append, hunpaid, heclipsed, List.countP_singleton,
      List.countP_singleton]
    -- an ending by the blind is no ending by the run
    by_cases hblind : turn.ending = some .blind
    · simp [hpaid, hblind, Turn.eclipsed]
    · simp [hpaid, hblind]
  · rw [List.countP_append, hunpaid, List.countP_singleton, Nat.zero_add]
    split <;> omega

end Underway

/-! ## Episodes played alone -/

namespace Rollout
namespace Stage

def turn? (stage : Stage σ α) : Option Turn :=
  stage.env.turn? E (A.act stage.agent stage.view).1

def turns (stage : Stage σ α) : Nat → List Turn
  | 0 => []
  | count + 1 =>
    match stage.step E A with
    | .error _ => []
    | .ok reply =>
      match reply.answer with
      | .error _ => []
      | .ok transition =>
        (stage.turn? E A).toList ++ turns (stage.next A reply.state transition) count

variable {E A} in
theorem turns_succ {stage : Stage σ α} {reply : Reply (Env σ) (Except Failure Transition)}
    {transition : Transition} {turn : Turn} (h : stage.step E A = .ok reply)
    (ha : reply.answer = .ok transition) (hturn : stage.turn? E A = some turn) (count : Nat) :
    stage.turns E A (count + 1) =
      turn :: (stage.next A reply.state transition).turns E A count := by
  rw [turns, h]
  dsimp only
  rw [ha, hturn]
  rfl

end Stage

variable {E A}

theorem accounted_of_playOn (each : Transition → Transcript) (colours : Bool) {env : Env σ}
    {agent : α} {view : View} {running total : Summary} {turns : List Turn} {played : Played σ α}
    (h : Underway env.tracker running turns)
    (hplay : playOn E A each colours env agent view running = .ok played)
    (htotal : played.answer = .ok total) :
    let made := Stage.turns E A ⟨env, agent, view⟩ played.transitions.length
    List.Forall₂ Turn.Told made played.transitions ∧ Accounted total (turns ++ made) := by
  fun_induction playOn E A each colours env agent view running generalizing turns played total with
  | case1 | case4 => cases hplay
  | case2 =>
    cases hplay
    cases htotal
  | case3 env agent view running choice reply hstep transition hanswer =>
    cases hplay
    obtain rfl : _ = total := Except.ok.inj htotal
    obtain ⟨report, read, penalty, turn, hturn?, hturn, htold, -⟩ :=
      Env.turn?_of_step hstep hanswer
    have hstage : Stage.step E A ⟨env, agent, view⟩ = .ok reply := hstep
    have hone : Stage.turns E A ⟨env, agent, view⟩ 1 = [turn] :=
      Stage.turns_succ hstage hanswer hturn? 0
    rw [List.length_singleton, hone]
    exact ⟨.cons htold .nil, h.accounted hturn htold⟩
  | case5 env agent view running choice reply hstep transition hanswer =>
    rename_i hgoes _ later hlater ih
    cases hplay
    obtain ⟨report, read, penalty, turn, hturn?, hturn, htold, hstate⟩ :=
      Env.turn?_of_step hstep hanswer
    have hnext := h.next hturn htold hgoes
    rw [← hstate] at hnext
    obtain ⟨htolds, hrest⟩ := ih hnext hlater htotal
    have hstage : Stage.step E A ⟨env, agent, view⟩ = .ok reply := hstep
    have hmore : Stage.turns E A ⟨env, agent, view⟩ (later.transitions.length + 1) =
        turn :: Stage.turns E A ⟨reply.state, choice.2, transition.view⟩ later.transitions.length :=
      Stage.turns_succ hstage hanswer hturn? _
    rw [List.length_cons, hmore]
    exact ⟨.cons htold htolds, by simpa using hrest⟩

end Rollout

/-! ## Episodes in a batch -/

namespace Seat

def turn? (seat : Seat σ α) : Option Turn := seat.env.turn? E (seat.choice A)

/-- The episodes that end in so many steps of a seat, as long as these succeed, each by its summary
and its turns; the present one has come to some turns before. -/
def accounts (stride : UInt64) (seat : Seat σ α) (turns : List Turn) :
    Nat → List (Summary × List Turn)
  | 0 => []
  | count + 1 =>
    match seat.play E A stride with
    | .error _ => []
    | .ok reply =>
      let turns := turns ++ (seat.turn? E A).toList
      match reply.answer with
      | .error _ => []
      | .ok none => accounts stride reply.state turns count
      | .ok (some total) => (total, turns) :: accounts stride reply.state [] count

variable {E A} {stride : UInt64} {seat : Seat σ α} {turns : List Turn}
  {reply : Reply (Seat σ α) (Except Failure (Option Summary))}

theorem accounts_of_goes (h : seat.play E A stride = .ok reply) (ha : reply.answer = .ok none)
    (turns : List Turn) (count : Nat) :
    seat.accounts E A stride turns (count + 1) =
      reply.state.accounts E A stride (turns ++ (seat.turn? E A).toList) count := by
  simp only [accounts, h, ha]

theorem accounts_of_ends {total : Summary} (h : seat.play E A stride = .ok reply)
    (ha : reply.answer = .ok (some total)) (turns : List Turn) (count : Nat) :
    seat.accounts E A stride turns (count + 1) =
      (total, turns ++ (seat.turn? E A).toList) :: reply.state.accounts E A stride [] count := by
  simp only [accounts, h, ha]

theorem underway_of_play (h : Underway seat.env.tracker seat.running turns)
    (hplay : seat.play E A stride = .ok reply) (ha : reply.answer = .ok none) :
    Underway reply.state.env.tracker reply.state.running (turns ++ (seat.turn? E A).toList) := by
  obtain ⟨stepped, transition, hstep, hanswer, hgoes, hstate⟩ := play_none_elim hplay ha
  obtain ⟨report, read, penalty, turn, hturn?, hturn, htold, htracker⟩ :=
    Env.turn?_of_step hstep hanswer
  have hseat : seat.turn? E A = some turn := hturn?
  rw [hstate, hseat]
  show Underway stepped.state.tracker _ _
  rw [htracker]
  exact h.next hturn htold hgoes

theorem accounted_of_play (h : Underway seat.env.tracker seat.running turns)
    (hplay : seat.play E A stride = .ok reply) {total : Summary}
    (ha : reply.answer = .ok (some total)) :
    Accounted total (turns ++ (seat.turn? E A).toList) ∧
      Underway reply.state.env.tracker reply.state.running [] := by
  obtain ⟨stepped, transition, opening, hstep, hanswer, -, rfl, hopening, hstate⟩ :=
    play_some_elim hplay ha
  obtain ⟨report, read, penalty, turn, hturn?, hturn, htold, -⟩ :=
    Env.turn?_of_step hstep hanswer
  have hseat : seat.turn? E A = some turn := hturn?
  rw [hstate, hseat]
  exact ⟨h.accounted hturn htold, .of_reset hopening⟩

theorem accounted_of_accounts {count : Nat} (h : Underway seat.env.tracker seat.running turns) :
    ∀ entry ∈ seat.accounts E A stride turns count, Accounted entry.1 entry.2 := by
  induction count generalizing seat turns with
  | zero =>
    intro entry hentry
    cases hentry
  | succ count ih =>
    intro entry hentry
    rw [accounts] at hentry
    split at hentry
    · cases hentry
    · rename_i reply hplay
      dsimp only at hentry
      split at hentry
      · cases hentry
      · rename_i hanswer
        exact ih (underway_of_play h hplay hanswer) entry hentry
      · rename_i total hanswer
        obtain ⟨haccounted, hfresh⟩ := accounted_of_play h hplay hanswer
        rcases List.mem_cons.1 hentry with rfl | hentry
        · exact haccounted
        · exact ih hfresh entry hentry

end Seat

/-- An episode with this summary is among those that end in some number of steps, whatever the
turns before. -/
def Seat.Settles (stride : UInt64) (seat : Seat σ α) (s : Summary) : Prop :=
  ∀ before, ∃ count turns, (s, turns) ∈ seat.accounts E A stride before count

namespace Seat
variable {E A} {stride : UInt64} {seat : Seat σ α} {s : Summary} {ended : Option Summary}
  {reply : Reply (Seat σ α) (Except Failure (Option Summary))}

theorem settles_of_play (h : seat.play E A stride = .ok reply) (ha : reply.answer = .ok ended)
    (hs : ended = some s ∨ reply.state.Settles E A stride s) : seat.Settles E A stride s := by
  intro before
  cases ended with
  | none =>
    rcases hs with hs | hs
    · cases hs
    · obtain ⟨count, turns, hmem⟩ := hs (before ++ (seat.turn? E A).toList)
      exact ⟨count + 1, turns, by rwa [accounts_of_goes h ha]⟩
  | some total =>
    rcases hs with hs | hs
    · obtain rfl := Option.some.inj hs
      exact ⟨1, _, by rw [accounts_of_ends h ha]; exact List.mem_cons_self⟩
    · obtain ⟨count, turns, hmem⟩ := hs []
      exact ⟨count + 1, turns, by rw [accounts_of_ends h ha]; exact List.mem_cons_of_mem _ hmem⟩

end Seat

namespace Rollout
variable {E A} {each : Transition → Transcript} {colours : Bool}

theorem settles_of_playRounds {wanted : Nat} {table : Table σ α}
    {played : Reply (Table σ α) (Except Failure (List Summary))} {done : List Summary}
    (h : playRounds E A colours wanted table = .ok played) (ha : played.answer = .ok done) :
    ∀ s ∈ done, ∃ seat ∈ table.seats, seat.Settles E A table.fleet.stride s := by
  refine playRounds_rec (P := fun _ table done => ∀ s ∈ done,
    ∃ seat ∈ table.seats, seat.Settles E A table.fleet.stride s) ?_ ?_ h ha
  · intro table s hs
    cases hs
  · intro wanted table reply ended later _ hround hended ih s hs
    obtain ⟨ends, rfl, hstride, hends, hseats, hplays⟩ := Table.round_ok_elim hround hended
    rcases List.mem_append.1 hs with hs | hs
    · obtain ⟨now, hnow, rfl⟩ := List.mem_filterMap.1 (List.mem_of_mem_take hs)
      obtain ⟨place, hplace⟩ := List.mem_iff_getElem?.1 hnow
      obtain ⟨hlt, -⟩ := List.getElem?_eq_some_iff.1 hplace
      have hseat := List.getElem?_eq_getElem (hends ▸ hlt)
      obtain ⟨made, ended, hplay, hanswer, hended, -⟩ := hplays place _ hseat
      obtain rfl := Option.some.inj (hplace.symm.trans hended)
      exact ⟨_, List.mem_of_getElem? hseat, Seat.settles_of_play hplay hanswer (.inl rfl)⟩
    · obtain ⟨next, hnext, hsettles⟩ := ih s hs
      obtain ⟨place, hplace⟩ := List.mem_iff_getElem?.1 hnext
      obtain ⟨hlt, -⟩ := List.getElem?_eq_some_iff.1 hplace
      have hseat := List.getElem?_eq_getElem (hseats ▸ hlt)
      obtain ⟨made, ended, hplay, hanswer, -, hstate⟩ := hplays place _ hseat
      obtain rfl := Option.some.inj (hplace.symm.trans hstate)
      rw [hstride] at hsettles
      exact ⟨_, List.mem_of_getElem? hseat, Seat.settles_of_play hplay hanswer (.inr hsettles)⟩

theorem underway_opening {fleet : Fleet σ} {agents : List α} {views : List View} {table : Table σ α}
    (hagents : agents.length = fleet.size) (hviews : (fleet.reset E).answer = .ok views)
    (hseats : table.seats = List.zipWith seat (fleet.reset E).state.envs (agents.zip views)) :
    ∀ seat ∈ table.seats, Underway seat.env.tracker seat.running [] := by
  intro s hs
  obtain ⟨env, agent, view, -, hopening, rfl⟩ := seat_of_opening hagents hviews hseats hs
  exact Underway.of_reset hopening

/-- In every episode that is completed, alone or in a batch, the bonuses that are paid are the
blinds that the summary counts and those that are eclipsed, and there is at most one. -/
theorem bonuses_of_blinds (each : Transition → Transcript) (colours : Bool) :
    (∀ (env : Env σ) seed (agent : α) played s,
      episode E A each colours env seed agent = .ok played → played.answer = .ok s →
      let opened := env.reset E seed
      ∃ view, opened.answer = .ok view ∧
        let turns := Stage.turns E A ⟨opened.state, agent, view⟩ played.transitions.length
        List.Forall₂ Turn.Told turns played.transitions ∧ Accounted s turns) ∧
    ∀ (fleet : Fleet σ) (agents : List α) episodes played done,
      batch E A colours fleet agents episodes = .ok played → played.answer = .ok done →
      ∃ views, ∃ table : Table σ α, (fleet.reset E).answer = .ok views ∧
        table.seats = List.zipWith seat (fleet.reset E).state.envs (agents.zip views) ∧
        (∀ s ∈ done, ∃ seat ∈ table.seats, ∃ count turns,
          (s, turns) ∈ seat.accounts E A table.fleet.stride [] count) ∧
        ∀ seat ∈ table.seats, ∀ count s turns,
          (s, turns) ∈ seat.accounts E A table.fleet.stride [] count → Accounted s turns := by
  constructor
  · intro env seed agent played s hepisode hs opened
    simp only [episode] at hepisode
    split at hepisode
    · cases hepisode
      cases hs
    · rename_i view hopening
      split at hepisode
      · cases hepisode
      · rename_i rest hrest
        cases hepisode
        have hplayed := accounted_of_playOn each colours (.of_reset hopening) hrest hs
        exact ⟨view, hopening, hplayed⟩
  · intro fleet agents episodes played done hbatch hdone
    obtain ⟨views, table, reply, hagents, hviews, hseats, hplayed, hreply⟩ :=
      batch_ok_elim hbatch hdone
    refine ⟨views, table, hviews, hseats, fun s hs => ?_, fun seat hseat count s turns hmem => ?_⟩
    · obtain ⟨seat, hseat, hsettles⟩ := settles_of_playRounds hplayed hreply s hs
      exact ⟨seat, hseat, hsettles []⟩
    · exact Seat.accounted_of_accounts (underway_opening hagents hviews hseats seat hseat) _ hmem

/-- A blind is selected and played, and this is the report that follows. -/
def closing (last : Report) : Script where
  frames := [{ report := some (.input .blindSelect [⟨1, "select"⟩]) },
    { report := some (.input .playing [⟨1, "play"⟩]) }, { report := some last }]

theorem episode_of_steps (each : Transition → Transcript) (colours : Bool) {env : Env σ}
    {seed : UInt64} {agent : α} {view : View}
    {once twice : Reply (Env σ) (Except Failure Transition)} {first second : Transition}
    (hopening : (env.reset E (some seed)).answer = .ok view)
    (honce : (env.reset E (some seed)).state.step E (A.act agent view).1 = .ok once)
    (hfirst : once.answer = .ok first) (hgoes : first.terminated = false)
    (htwice : once.state.step E (A.act (A.act agent view).2 first.view).1 = .ok twice)
    (hsecond : twice.answer = .ok second) (hends : second.terminated = true) :
    ∃ played, episode E A each colours env (some seed) agent = .ok played ∧
      played.answer = .ok ((Summary.absorb { seed := seed } first).absorb second) ∧
      played.transitions = [first, second] := by
  simp only [episode, hopening, Env.seed_reset]
  rw [playOn_of_step honce hfirst, if_neg (by simp [hgoes]), playOn_of_step htwice hsecond,
    if_pos hends]
  exact ⟨_, rfl, rfl, rfl⟩

def cleared : Script := closing (.progressed (some .roundEnd))

/-- One episode by itself and one in a batch, each with one blind and one bonus. -/
theorem bonuses_of_blinds_of_cleared :
    (∃ env played s view,
      (Env.make cleared.engine {} 3).1 = .ok env ∧
      episode cleared.engine Player.agent (fun _ => []) false env (some 3) .first = .ok played ∧
      played.answer = .ok s ∧ s.blinds = 1 ∧
      (env.reset cleared.engine (some 3)).answer = .ok view ∧
      let turns := Stage.turns cleared.engine Player.agent
        ⟨(env.reset cleared.engine (some 3)).state, .first, view⟩ played.transitions.length
      List.Forall₂ Turn.Told turns played.transitions ∧ Accounted s turns) ∧
    ∃ fleet played done,
      (Fleet.make cleared.engine 1 (Config.seeded {} 3) 0).1 = .ok fleet ∧
      batch cleared.engine Player.agent false fleet [.first] 1 = .ok played ∧
      played.answer = .ok done ∧ done.map (·.blinds) = [1] ∧
      ∀ s ∈ done, ∃ turns, Accounted s turns := by
  have hmain := bonuses_of_blinds (E := cleared.engine) (A := Player.agent) (fun _ => []) false
  constructor
  · obtain ⟨env, view, once, twice, first, second, hmake, hopening, honce, hfirst, hgoes, htwice,
        hsecond, hends, hblind⟩ :
        ∃ env view, ∃ once twice : Reply (Env Nat) (Except Failure Transition), ∃ first second,
          (Env.make cleared.engine {} 3).1 = .ok env ∧
          (env.reset cleared.engine (some 3)).answer = .ok view ∧
          (env.reset cleared.engine (some 3)).state.step cleared.engine
            (Player.agent.act .first view).1 = .ok once ∧
          once.answer = .ok first ∧ first.terminated = false ∧
          once.state.step cleared.engine
            (Player.agent.act (Player.agent.act .first view).2 first.view).1 = .ok twice ∧
          twice.answer = .ok second ∧ second.terminated = true ∧
          ((Summary.absorb { seed := 3 } first).absorb second).blinds = 1 :=
      ⟨_, _, _, _, _, _, rfl, rfl, rfl, rfl, rfl, rfl, rfl, rfl, rfl⟩
    obtain ⟨played, hplayed, hanswer, -⟩ := episode_of_steps (fun _ => []) false hopening honce
      hfirst hgoes htwice hsecond hends
    obtain ⟨view', hopening', hturns⟩ := hmain.1 env (some 3) .first played _ hplayed hanswer
    exact ⟨env, played, _, view', hmake, hplayed, hanswer, hblind, hopening', hturns⟩
  · obtain ⟨fleet, views, table, once, twice, ended, hmake, hagents, hviews, hseats, honce, hgoes,
        htwice, hends, hlength, hblinds⟩ :
        ∃ fleet views, ∃ table : Table Nat Player, ∃ once twice, ∃ ended : List Summary,
          (Fleet.make cleared.engine 1 (Config.seeded {} 3) 0).1 = .ok fleet ∧
          [Player.first].length = fleet.size ∧ (fleet.reset cleared.engine).answer = .ok views ∧
          table.seats = List.zipWith seat (fleet.reset cleared.engine).state.envs
            ([Player.first].zip views) ∧
          table.round cleared.engine Player.agent = .ok once ∧ once.answer = .ok [] ∧
          once.state.round cleared.engine Player.agent = .ok twice ∧ twice.answer = .ok ended ∧
          ended.length = 1 ∧ (ended.take 1).map (·.blinds) = [1] :=
      ⟨_, _, ⟨[_], by simp⟩, _, _, _, rfl, rfl, rfl, rfl, rfl, rfl, rfl, rfl, rfl, rfl⟩
    obtain ⟨later, hlater, hrest⟩ : ∃ later,
        playRounds cleared.engine Player.agent false 1 once.state = .ok later ∧
          later.answer = .ok (ended.take 1 ++ []) :=
      playRounds_of_round (by omega) htwice hends (by rw [hlength, playRounds]; rfl) rfl
    obtain ⟨reply, hreply, hdone⟩ : ∃ reply,
        playRounds cleared.engine Player.agent false 1 table = .ok reply ∧
          reply.answer = .ok (List.take 1 [] ++ (ended.take 1 ++ [])) :=
      playRounds_of_round (by omega) honce hgoes hlater hrest
    obtain ⟨played, hbatch, hanswer⟩ :=
      batch_of_playRounds hagents hviews hseats (by decide) hreply
    rw [hdone, List.take_nil, List.nil_append, List.append_nil] at hanswer
    obtain ⟨_, table, -, -, hended, haccounted⟩ :=
      hmain.2 fleet [.first] 1 played _ hbatch hanswer
    refine ⟨fleet, played, _, hmake, hbatch, hanswer, hblinds, fun s hs => ?_⟩
    obtain ⟨seat, hseat, count, turns, hmem⟩ := hended s hs
    exact ⟨turns, haccounted seat hseat count s turns hmem⟩

def won : Script := closing (.ended (some .roundEnd) false)

/-- The bonus is paid and no blind is counted. -/
theorem not_bonuses_eq_blinds :
    ∃ env played s view,
      (Env.make won.engine {} 3).1 = .ok env ∧
      episode won.engine Player.agent (fun _ => []) false env (some 3) .first = .ok played ∧
      played.answer = .ok s ∧ (env.reset won.engine (some 3)).answer = .ok view ∧
      let turns := Stage.turns won.engine Player.agent
        ⟨(env.reset won.engine (some 3)).state, .first, view⟩ played.transitions.length
      s.blinds = 0 ∧ turns.countP (·.shaped.paid) = 1 := by
  obtain ⟨env, view, once, twice, first, second, hmake, hopening, honce, hfirst, hgoes, htwice,
      hsecond, hends, hblind, hbonus⟩ :
      ∃ env view, ∃ once twice : Reply (Env Nat) (Except Failure Transition), ∃ first second,
        (Env.make won.engine {} 3).1 = .ok env ∧
        (env.reset won.engine (some 3)).answer = .ok view ∧
        (env.reset won.engine (some 3)).state.step won.engine
          (Player.agent.act .first view).1 = .ok once ∧
        once.answer = .ok first ∧ first.terminated = false ∧
        once.state.step won.engine
          (Player.agent.act (Player.agent.act .first view).2 first.view).1 = .ok twice ∧
        twice.answer = .ok second ∧ second.terminated = true ∧
        ((Summary.absorb { seed := 3 } first).absorb second).blinds = 0 ∧
        (Stage.turns won.engine Player.agent
          ⟨(env.reset won.engine (some 3)).state, .first, view⟩ 2).countP (·.shaped.paid) = 1 :=
    ⟨_, _, _, _, _, _, rfl, rfl, rfl, rfl, rfl, rfl, rfl, rfl, rfl, rfl⟩
  obtain ⟨played, hplayed, hanswer, htransitions⟩ := episode_of_steps (fun _ => []) false hopening
    honce hfirst hgoes htwice hsecond hends
  refine ⟨env, played, _, view, hmake, hplayed, hanswer, hopening, hblind, ?_⟩
  rw [htransitions]
  exact hbonus

end Rollout
end BlindArena
