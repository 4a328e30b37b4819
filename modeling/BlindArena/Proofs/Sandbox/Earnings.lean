import BlindArena.Proofs.Env.Books
import BlindArena.Proofs.Sandbox.Environment
import BlindArena.Proofs.Tracker.Bonus
import BlindArena.Proofs.Tracker.Pay

/-!
# What an episode over the sandbox earns

An episode plays one blind at most, and money does not move in it. While the blind lasts, its chips
are the score counted from the baseline, so the gains that a step is paid for are the points of its
hand. Only the hand that loses the run is not paid, because no figures are read when the game is
over. Hence the gains of an episode add up to the chips of a blind that is beaten, and stay below
the target otherwise.
-/

namespace BlindArena

/-! ## Figures of one blind -/

namespace Tracker
variable {t t' : Tracker} {figures : Snapshot} {baseline : Baseline} {phase : Phase}

theorem Followed.counted (hf : Followed t (some figures) (some phase) t')
    (hphase : phase = .playing ∨ phase = .roundEnd) (hprev : t.prevPhase = some .playing)
    (hstarted : t.started = true) (hbaseline : t.baseline = some baseline) :
    t' = { t with
      current := figures.minus baseline.figures
      tier := .engine
      finished := t.finished || phase = .roundEnd } := by
  cases hf with
  | opens => simp at hphase
  | enters hother => exact absurd hprev hother
  | goesOn hplaying hrunning hr | finishes hrunning hr =>
    obtain ⟨hsub, -, htier⟩ := hr.of_baseline hbaseline
    rw [hr.eq_with, htier, Snapshot.eq_minus_of_sub hsub]
    simp
  | idles hselect hplay hend =>
    rcases hphase with rfl | rfl
    · simp [(hplay rfl).2] at hstarted
    · simp [hend rfl] at hstarted

theorem Followed.current_eq {read : Option Snapshot} (hf : Followed t read (some phase) t')
    (hphase : phase = .blindSelect ∨ phase = .gameOver) : t'.current = t.current := by
  refine (hf.unread ?_).1
  rcases hphase with rfl | rfl <;> rfl

end Tracker

namespace Sandbox
variable {s : Sandbox} {t t' : Tracker} {total : Int}

def handPoints (s : Sandbox) : Int := points (pickedValues (pickFirst s.cards))

theorem Sound.handPoints_nonneg (h : s.Sound) (hphase : s.phase = .playing) : 0 ≤ s.handPoints := by
  obtain ⟨-, -, -, hrange⟩ := h.playing hphase
  exact (points_le (inRange_pickFirst hrange) (pickedCount_pickFirst h.picked_le)).1

/-- What a step from one state to another earns: the points of the hand that is played, unless the
game is lost with it. -/
def earned (s : Sandbox) (action : Index) (s' : Sandbox) : Int :=
  if s.phase = .playing ∧ action = 0 ∧ (s'.phase = .playing ∨ s'.phase = .roundEnd) then
    s.handPoints
  else 0

/-- A blind is being played and has earned so much. -/
structure Running (t : Tracker) (s : Sandbox) (total : Int) : Prop where
  phase : s.phase = .playing
  started : t.started = true
  baseline : t.baseline = some ⟨.engine, ⟨0, s.money⟩⟩
  score : s.score = total
  chips : s.chips = total
  short : total < s.target

/-- How an episode stands that has earned so much: before its blind, in it, or after it is lost. -/
inductive Stands (t : Tracker) (s : Sandbox) (total : Int) : Prop
  | selecting (hphase : s.phase = .blindSelect) (hscore : s.score = 0) (htotal : total = 0)
  | running (h : Running t s total)
  | lost (hphase : s.phase = .gameOver) (hshort : total < s.target)

structure Beaten (t : Tracker) (s : Sandbox) (total : Int) : Prop where
  phase : s.phase = .roundEnd
  goes : s.outcome = none
  started : t.started = true
  finished : t.finished = true
  chips : s.chips = total
  target_le : s.target ≤ total

theorem Stands.short (h : Stands t s total) (hs : s.Sound) : total < s.target := by
  cases h with
  | selecting hphase hscore htotal => rw [htotal]; exact target_pos hs.ante_pos
  | running h => exact h.short
  | lost hphase hshort => exact hshort

/-! ## One step -/

/-- A tracker that has arrived at one state follows a step to another. -/
structure Follows (t : Tracker) (s s' : Sandbox) (total : Int) (t' : Tracker) : Prop where
  prevPhase : t.prevPhase = some s.phase
  current : t.current = ⟨total, 0⟩
  followed : ∃ read, (t.wantsRead (some s'.phase) = true → read = some s'.figures) ∧
    t.Followed read (some s'.phase) t'

/-- What the tracker makes of a step: the figures have grown by what it earned. -/
structure Continues (t : Tracker) (s : Sandbox) (total gained : Int) : Prop where
  gained_nonneg : 0 ≤ gained
  current : t.current = ⟨total + gained, 0⟩
  stands : Stands t s (total + gained) ∨ Beaten t s (total + gained)

variable {s' : Sandbox} {gained : Int} {a : Index}

theorem Stands.continues (h : Stands t s total) (hcurrent : t.current = ⟨total, 0⟩) :
    Continues t s total 0 :=
  ⟨le_rfl, by rw [hcurrent, Int.add_zero], Or.inl (by rwa [Int.add_zero])⟩

theorem Follows.unread (h : Follows t s s' total t')
    (hphase : s'.phase = .blindSelect ∨ s'.phase = .gameOver) (hstands : Stands t' s' total) :
    Continues t' s' total (s.earned a s') := by
  obtain ⟨read, -, hf⟩ := h.followed
  have hearned : s.earned a s' = 0 := by
    rcases hphase with hphase | hphase <;> simp [earned, hphase]
  rw [hearned]
  exact hstands.continues ((hf.current_eq hphase).trans h.current)

theorem Follows.begin (h : Follows t s s.beginBlind.value total t') (hs : s.Sound)
    (hphase : s.phase = .blindSelect) (hscore : s.score = 0) (htotal : total = 0) :
    Continues t' s.beginBlind.value total (s.earned a s.beginBlind.value) := by
  have hsound := hs.beginBlind hphase
  have hvalue := value_beginBlind s
  generalize s.beginBlind.value = s' at *
  obtain ⟨read, hread, hf⟩ := h.followed
  have hphase' : s'.phase = .playing := by rw [hvalue]
  have hscore' : s'.score = 0 := by rw [hvalue, ← hscore]
  have henters : t.enters (some s'.phase) = true := by
    simp [Tracker.enters, h.prevPhase, hphase, hphase']
  have hearned : s.earned a s' = 0 := by simp [earned, hphase]
  -- the figures read on entering become the baseline; they are not counted themselves
  obtain rfl := hread (by rw [Tracker.wantsRead_eq, henters, Bool.true_or])
  subst htotal
  rw [hf.entered henters, hearned]
  refine Stands.continues (.running ?_) h.current
  exact {
    phase := hphase'
    started := rfl
    baseline := by simp [Tracker.startBlind, figures, hscore']
    score := hscore'
    chips := by rw [hvalue]
    short := target_pos hsound.ante_pos }

theorem Follows.counted (h : Follows t s s' total t') (hr : Running t s total)
    (hphase : s'.phase = .playing ∨ s'.phase = .roundEnd) (hmoney : s'.money = s.money)
    (hscore : s'.score = total + gained) :
    t' = { t with
      current := ⟨total + gained, 0⟩
      tier := .engine
      finished := t.finished || s'.phase = .roundEnd } := by
  obtain ⟨read, hread, hf⟩ := h.followed
  have hwants : t.wantsRead (some s'.phase) = true := by
    rcases hphase with hphase | hphase <;> simp [hphase, Tracker.wantsRead, hr.started]
  rw [hread hwants] at hf
  rw [hf.counted hphase (by rw [h.prevPhase, hr.phase]) hr.started hr.baseline]
  simp [figures, Snapshot.minus, hmoney, hscore]

theorem Follows.kept (h : Follows t s s' total t') (hr : Running t s total) {cards : List Card}
    {rng : Generator} {discards : Nat}
    (hvalue : s' = { s with cards := cards, rng := rng, discards := discards }) (ha : a ≠ 0) :
    Continues t' s' total (s.earned a s') := by
  have hphase : s'.phase = .playing := by rw [hvalue, ← hr.phase]
  have hmoney : s'.money = s.money := by rw [hvalue]
  have hscore : s'.score = total + 0 := by rw [hvalue, Int.add_zero, ← hr.score]
  have hearned : s.earned a s' = 0 := by simp [earned, ha]
  rw [hearned, h.counted hr (Or.inl hphase) hmoney hscore, Int.add_zero]
  refine Stands.continues (.running ?_) rfl
  exact {
    phase := hphase
    started := hr.started
    baseline := by rw [hmoney]; exact hr.baseline
    score := by rw [hscore, Int.add_zero]
    chips := by rw [hvalue, ← hr.chips]
    short := by rw [hvalue]; exact hr.short }

theorem Follows.play (h : Follows t s s.play.value total t') (hr : Running t s total)
    (hs : s.Sound) (hopen : s.outcome = none) :
    Continues t' s.play.value total (s.earned 0 s.play.value) := by
  have hnonneg := hs.handPoints_nonneg hr.phase
  obtain ⟨phase, hplay, hends⟩ := play_elim s
  change _ ∧ s.target ≤ s.chips + s.handPoints ∨ s.chips + s.handPoints < s.target ∧ _ at hends
  rw [hr.chips] at hends
  generalize s.play.value = s' at *
  have hphase : s'.phase = phase := by rw [hplay]
  have hmoney : s'.money = s.money := by rw [hplay]
  have hscore : s'.score = total + s.handPoints := by rw [hplay, ← hr.score]; rfl
  have hchips : s'.chips = total + s.handPoints := by rw [hplay, ← hr.chips]; rfl
  have htarget : s'.target = s.target := by rw [hplay]; rfl
  have hearned : s'.phase = .playing ∨ s'.phase = .roundEnd → s.earned 0 s' = s.handPoints :=
    fun hends => by simp [earned, hr.phase, hends]
  rcases hends with ⟨rfl, hbeaten⟩ | ⟨hbelow, ⟨rfl, -⟩ | ⟨hgoes, -⟩⟩
  · rw [hearned (Or.inr hphase), h.counted hr (Or.inr hphase) hmoney hscore]
    exact {
      gained_nonneg := hnonneg
      current := rfl
      stands := Or.inr {
        phase := hphase
        goes := by rw [hplay, ← hopen]
        started := hr.started
        finished := by simp [hphase]
        chips := hchips
        target_le := by rw [htarget]; exact hbeaten } }
  · -- the last hand counts for the engine, but its figures are not read
    exact h.unread (Or.inr hphase) (.lost hphase (by rw [htarget]; exact hr.short))
  · have hplaying : s'.phase = .playing := by rw [hphase, hgoes, hr.phase]
    rw [hearned (Or.inl hplaying), h.counted hr (Or.inl hplaying) hmoney hscore]
    exact {
      gained_nonneg := hnonneg
      current := rfl
      stands := Or.inl (.running {
        phase := hplaying
        started := hr.started
        baseline := by rw [hmoney]; exact hr.baseline
        score := hscore
        chips := hchips
        short := by rw [htarget]; exact hbelow }) }

theorem Stands.apply (h : Stands t s total) (hs : s.Sound) (hopen : s.outcome = none)
    (hf : Follows t s (s.apply a).value total t') :
    Continues t' (s.apply a).value total (s.earned a (s.apply a).value) := by
  have hmoved := s.moved_apply a
  generalize s.apply a = spoken at *
  cases h with
  | selecting hphase hscore htotal =>
    cases hmoved with
    | begins => exact hf.begin hs hphase hscore htotal
    | skips =>
      have hphase' : s.nextBlind.phase = .blindSelect := by rw [nextBlind_eq]
      have hscore' : s.nextBlind.score = 0 := by rw [nextBlind_eq, ← hscore]
      exact hf.unread (Or.inl hphase') (.selecting hphase' hscore' htotal)
    | ignored => exact hf.unread (Or.inl hphase) (.selecting hphase hscore htotal)
    | _ => simp_all
  | running hr =>
    cases hmoved with
    | plays => exact hf.play hr hs hopen
    | discards =>
      obtain ⟨cards, rng, discards, hdiscard⟩ := discard_elim s
      exact hf.kept hr hdiscard (by simp)
    | @toggles _ place =>
      obtain ⟨cards, htoggle⟩ := toggle_elim s place
      exact hf.kept hr htoggle (by simp)
    | ignored hmeans => exact hf.kept hr rfl (by rintro rfl; simp [Means, hr.phase] at hmeans)
    | _ => simp_all [hr.phase]
  | lost hphase hshort =>
    cases hmoved with
    | again => exact hf.unread (Or.inr hphase) (.lost hphase hshort)
    | exits => exact hf.unread (Or.inr hphase) (.lost hphase hshort)
    | ignored => exact hf.unread (Or.inr hphase) (.lost hphase hshort)
    | _ => simp_all

/-! ## Turns -/

theorem phase_decision (s : Sandbox) : s.decision.phase = some s.phase := by
  unfold decision
  cases s.outcome with
  | some outcome => rfl
  | none => cases hphase : s.phase <;> rfl

theorem status_decision (s : Sandbox) : s.decision.status = .finished ↔ s.outcome ≠ none := by
  unfold decision
  cases s.outcome with
  | some outcome => simp [Report.ended]
  | none => cases s.phase <;> simp [Report.input, Report.progressed]

variable {s s' : Sandbox} {t t' : Tracker} {total sum : Int} {a : Index} {cue : Cue} {turn : Turn}

/-- A tracker between the turns of an episode that has earned so much. -/
structure Counts (t : Tracker) (s : Sandbox) (total : Int) : Prop where
  prevPhase : t.prevPhase = some s.phase
  current : t.current = ⟨total, 0⟩
  previous : t.previous = ⟨total, 0⟩
  unpaid : t.paid = false
  stands : Stands t s total

/-- What a move is paid, and what the episode has earned with it. -/
structure Paid (s : Sandbox) (a : Index) (s' : Sandbox) (m : Move) (sum : Int) : Prop where
  gains : m.gains = .ok ⟨s.earned a s', 0⟩
  shaped : m.turn.shaped =
    Breakdown.ofGains ⟨s.earned a s', 0⟩ (m.turn.ending = some .blind) m.cue.penalty
  figures : m.turn.tracker.current = ⟨sum, 0⟩
  bonus : m.turn.shaped.paid = true ↔ m.turn.ending = some .blind
  beaten : m.turn.ending = some .blind → sum = s'.chips ∧ s'.target ≤ sum
  short : m.turn.ending ≠ some .blind → sum < s'.target

theorem Stands.of_eq (h : Stands t s total) (hstarted : t'.started = t.started)
    (hbaseline : t'.baseline = t.baseline) : Stands t' s total := by
  cases h with
  | selecting hphase hscore htotal => exact .selecting hphase hscore htotal
  | running hr =>
    exact .running { hr with
      started := hstarted.trans hr.started
      baseline := hbaseline.trans hr.baseline }
  | lost hphase hshort => exact .lost hphase hshort

theorem Stands.phase_ne (h : Stands t s total) : s.phase ≠ .roundEnd := by
  cases h with
  | selecting hphase hscore htotal => simp [hphase]
  | running hr => simp [hr.phase]
  | lost hphase hshort => simp [hphase]

theorem gains_of_current {gained : Int} {gains : Snapshot} (hgained : 0 ≤ gained)
    (hcurrent : t.current = ⟨total + gained, 0⟩) (hprevious : t.previous = ⟨total, 0⟩)
    (h : t.gains = .ok gains) : gains = ⟨gained, 0⟩ := by
  obtain ⟨moved, hmoved, rfl⟩ := Tracker.gains_eq_ok_iff.1 h
  rw [Snapshot.eq_minus_of_sub hmoved, hcurrent, hprevious]
  simp [Snapshot.minus, Snapshot.positive, hgained]

namespace Continues
variable {gained : Int} (h : Continues t s total gained)
include h

theorem beaten (hend : s.phase = .roundEnd) : Beaten t s (total + gained) := by
  rcases h.stands with hstands | hbeaten
  · exact absurd hend hstands.phase_ne
  · exact hbeaten

theorem standing (hend : s.phase ≠ .roundEnd) : Stands t s (total + gained) := by
  rcases h.stands with hstands | hbeaten
  · exact hstands
  · exact absurd hbeaten.phase hend

theorem bonusDue_eq (hunpaid : t.paid = false) :
    t.bonusDue (some s.phase) = decide (s.phase = .roundEnd) := by
  rcases h.stands with hstands | hbeaten
  · simp [Tracker.bonusDue, hstands.phase_ne]
  · simp [Tracker.bonusDue, hbeaten.phase, hbeaten.started, hbeaten.finished, hunpaid]

theorem decide_eq_blind_iff (hstarted : t'.started = t.started) (budget : Nat) :
    Ending.decide s.decision t' budget = some .blind ↔ s.phase = .roundEnd := by
  rw [Ending.decide_eq_blind_iff, phase_decision, Ne, status_decision, hstarted]
  rcases h.stands with hstands | hbeaten
  · simp [hstands.phase_ne]
  · simp [hbeaten.phase, hbeaten.goes, hbeaten.started]

end Continues

/-- A turn that goes with a step of the sandbox is paid what the step earns, and the bonus with the
step that beats the blind. -/
theorem Counts.play (h : Counts t s total) (hs : s.Sound) (hopen : s.outcome = none)
    (hplay : cue.play t = .ok turn) (hreport : cue.report = (s.apply a).value.decision)
    (hread : t.wantsRead (some (s.apply a).value.phase) = true →
      cue.read = some (s.apply a).value.figures) :
    Paid s a (s.apply a).value ⟨t, cue, turn⟩ (total + s.earned a (s.apply a).value) ∧
      (turn.ending = none → (s.apply a).value.outcome = none ∧
        Counts turn.tracker (s.apply a).value (total + s.earned a (s.apply a).value)) := by
  have hsound := hs.apply a
  obtain ⟨seen, gains, hseen, hgains, hshaped, htracker⟩ := Cue.play_ok_elim hplay
  obtain ⟨followed, hf, rfl⟩ := Tracker.followed_of_observe hseen
  have hphase : cue.report.phase = some (s.apply a).value.phase := by
    rw [hreport, phase_decision]
  rw [hphase] at hf hshaped htracker
  have hfollows : Follows t.tick s (s.apply a).value total followed :=
    ⟨h.prevPhase, h.current, cue.read, hread, hf⟩
  have hticked : Stands t.tick s total := h.stands.of_eq rfl rfl
  have hcontinues := hticked.apply hs hopen hfollows
  obtain rfl := gains_of_current hcontinues.gained_nonneg hcontinues.current
    (hf.previous_eq.trans h.previous) hgains
  have hending : turn.ending =
      Ending.decide (s.apply a).value.decision turn.tracker cue.budget := by
    rw [Cue.ending_of_play hplay, hreport]
  have hmade : Move.gains ⟨t, cue, turn⟩ = .ok ⟨s.earned a (s.apply a).value, 0⟩ := by
    rw [Move.gains, hseen]
    exact hgains
  generalize (s.apply a).value = s' at *
  have hunpaid : followed.paid = false := by
    rw [hf.paid_eq]
    simp [Tracker.tick, h.unpaid]
  have hblind : turn.ending = some .blind ↔ s'.phase = .roundEnd := by
    rw [hending]
    exact hcontinues.decide_eq_blind_iff (by rw [htracker]; rfl) _
  -- not yet paid, the bonus falls due exactly where the blind ends the episode
  have hdue : (followed.arrive cue.report).bonusDue (some s'.phase) =
      decide (turn.ending = some .blind) :=
    (hcontinues.bonusDue_eq hunpaid).trans (by simp only [hblind])
  rw [hdue] at hshaped htracker
  constructor
  · exact {
      gains := hmade
      shaped := hshaped
      figures := by rw [htracker]; exact hcontinues.current
      bonus := by rw [hshaped, Breakdown.paid_ofGains, decide_eq_true_iff]
      beaten := fun hend =>
        let hbeaten := hcontinues.beaten (hblind.1 hend)
        ⟨hbeaten.chips.symm, hbeaten.target_le⟩
      short := fun hgoes => (hcontinues.standing (mt hblind.2 hgoes)).short hsound }
  · intro hnone
    have hstatus := Ending.status_of_decide_none (hending.symm.trans hnone)
    rw [Ne, status_decision, not_not] at hstatus
    rw [hnone] at hblind htracker
    rw [htracker]
    exact ⟨hstatus, {
      prevPhase := hphase
      current := hcontinues.current
      previous := hcontinues.current
      unpaid := by simp [Tracker.settle, Tracker.arrive, hunpaid]
      stands := (hcontinues.standing (mt hblind.2 (by simp))).of_eq rfl rfl }⟩

end Sandbox

/-! ## Episodes -/

namespace Env
variable {σ : Type} (E : Engine σ)

def move (env : Env σ) (action : Index) : Option Move :=
  (env.cue E action).bind fun cue =>
    (cue.play env.tracker).toOption.map fun turn => ⟨env.tracker, cue, turn⟩

namespace Entry

def move (x : Entry σ) : Option Move :=
  match x.call with
  | .step action => x.before.move E action
  | _ => none

def ending (x : Entry σ) : Option Ending :=
  match x.answer with
  | .stepped (.ok transition) => transition.ending
  | _ => none

def scoreGain (x : Entry σ) : Int := ((x.move E).bind fun m => m.gains.toOption).elim 0 (·.score)

end Entry
end Env

namespace Sandbox
variable {env : Env Sandbox} {s : Sandbox} {total : Int}

/-- An episode that is under way and has earned so much. -/
structure Underway (env : Env Sandbox) (s : Sandbox) (total : Int) : Prop where
  session : ∃ quiet, env.session = some ⟨s, quiet⟩
  steady : Steady env
  goes : s.outcome = none
  counts : Counts env.tracker s total

theorem Underway.sound (h : Underway env s total) : s.Sound := by
  obtain ⟨quiet, hsession⟩ := h.session
  exact (h.steady.session _ hsession).sound

theorem underway_reset (env : Env Sandbox) (seed : Option UInt64) :
    ∃ s, Underway (env.reset engine seed).state s 0 := by
  refine ⟨((fresh (seed.getD env.seed)).configure env.config.deck env.config.stake).resetRun, ?_⟩
  exact {
    session := ⟨_, rfl⟩
    steady := (steady_reset env seed).2
    goes := rfl
    counts := ⟨rfl, rfl, rfl, rfl, .selecting rfl rfl rfl⟩ }

theorem read_engine (s : Sandbox) (quiet : Bool) (t : Tracker) {phase : Option Phase}
    (hwants : t.wantsRead phase = true) :
    (Env.read engine ⟨s, quiet⟩ t phase).1 = some s.figures := by
  simp only [Env.read, hwants, if_true]
  rfl

theorem Underway.turn (h : Underway env s total) (action : Index) :
    let resolution := Resolution.resolve action env.tracker.legal
    let s' := (s.apply resolution.effective).value
    ∃ reply cue turn quiet, env.step engine action = .ok reply ∧ Steady reply.state ∧
      reply.answer = .ok
        { view := View.afterStep cue.report turn.tracker resolution
          reward := turn.shaped.total
          ending := turn.ending } ∧
      reply.state = { env with session := some ⟨s', quiet⟩, tracker := turn.tracker } ∧
      env.move engine action = some ⟨env.tracker, cue, turn⟩ ∧
      cue.play env.tracker = .ok turn ∧ cue.report = s'.decision ∧
      (env.tracker.wantsRead (some s'.phase) = true → cue.read = some s'.figures) := by
  intro resolution s'
  obtain ⟨quiet, hsession⟩ := h.session
  obtain ⟨reply, hstep, hsteady, ⟨hclosed, -⟩ | ⟨transition, hanswer⟩⟩ := h.steady.step action
  · rw [hsession] at hclosed
    cases hclosed
  · obtain ⟨session, report, turn, hsession', hreport, hturn, htransition, hstate⟩ :=
      Env.step_ok_elim hstep hanswer
    obtain rfl := Option.some.inj (hsession.symm.trans hsession')
    have hact : s.act (some resolution.effective) = s.apply resolution.effective :=
      act_of_open h.goes _
    have hadvanced : (Session.advance engine ⟨s, quiet⟩
        (Resolution.resolve action env.tracker.legal).effective).state = ⟨s', quiet⟩ := by
      simp only [s', ← hact]
      rfl
    have hdecision : report = s'.decision := by
      simp only [s', ← hact]
      exact (Except.ok.inj hreport).symm
    rw [hadvanced] at hturn hstate
    refine ⟨reply, ⟨report, _, _, _⟩, turn, quiet, hstep, hsteady, by rw [hanswer, htransition],
      hstate, ?_, hturn, hdecision, fun hwants => ?_⟩
    · simp only [Env.move, Env.cue, hsession, hreport, hadvanced, Option.bind_some,
        Except.toOption, Option.map_some, Cue.play, hturn]
    · rw [← phase_decision, ← hdecision] at hwants
      exact read_engine _ _ _ hwants

/-- A step of an episode is answered, and paid what it earns. -/
def Answered (x : Env.Entry Sandbox) (sum : Int) : Prop :=
  ∃ session session' transition m action,
    x.before.session = some session ∧ x.after.session = some session' ∧
    x.answer = .stepped (.ok transition) ∧ x.move engine = some m ∧
    transition.view.info.effective = some action ∧ transition.view.info.money = 0 ∧
    transition.reward = m.turn.shaped.total ∧ transition.ending = m.turn.ending ∧
    Paid session.engine action session'.engine m sum

theorem Underway.step (h : Underway env s total) (action : Index) :
    ∃ reply s', env.step engine action = .ok reply ∧
      let x : Env.Entry Sandbox := ⟨env, .step action, .stepped reply.answer, reply.state⟩
      Answered x (total + x.scoreGain engine) ∧
      (x.ending = none → Underway reply.state s' (total + x.scoreGain engine)) := by
  obtain ⟨before, hsession⟩ := h.session
  obtain ⟨reply, cue, turn, quiet, hstep, hsteady, hanswer, hstate, hmove, hplay, hreport, hread⟩ :=
    h.turn action
  obtain ⟨hpaid, hnext⟩ := h.counts.play h.sound h.goes hplay hreport hread
  generalize Resolution.resolve action env.tracker.legal = resolution at *
  generalize (s.apply resolution.effective).value = s' at *
  have hgain : Env.Entry.scoreGain engine ⟨env, .step action, .stepped reply.answer, reply.state⟩ =
      s.earned resolution.effective s' := by
    simp [Env.Entry.scoreGain, Env.Entry.move, hmove, hpaid.gains, Except.toOption]
  refine ⟨reply, s', hstep, ?_, fun hnone => ?_⟩
  · rw [hgain]
    exact ⟨⟨s, before⟩, ⟨s', quiet⟩, _, _, resolution.effective, hsession, by rw [hstate],
      by rw [hanswer], hmove, rfl, congrArg Snapshot.money hpaid.figures, rfl, rfl, hpaid⟩
  · rw [hgain]
    simp only [Env.Entry.ending, hanswer] at hnone
    obtain ⟨hgoes, hcounts⟩ := hnext hnone
    exact ⟨⟨quiet, by rw [hstate]⟩, hsteady, hgoes, by rw [hstate]; exact hcounts⟩

theorem Underway.trail (h : Underway env s total) {actions : List Index}
    {entries : List (Env.Entry Sandbox)}
    (htrail : env.trail engine (actions.map .step) = .ok entries) {k : Nat}
    {x : Env.Entry Sandbox} (hx : entries[k]? = some x)
    (hgoes : ∀ y ∈ entries.take k, y.ending = none) :
    Answered x (total + ((entries.take (k + 1)).map (·.scoreGain engine)).sum) := by
  induction actions generalizing env s total entries k with
  | nil =>
    cases htrail
    simp at hx
  | cons action actions ih =>
    obtain ⟨reply, s', hstep, hanswered, hnext⟩ := h.step action
    simp only [List.map_cons, Env.trail, Env.Call.perform, hstep, Except.map] at htrail
    cases hlater : reply.state.trail engine (actions.map .step) with
    | error i => simp [hlater] at htrail
    | ok later =>
      simp only [hlater, Except.ok.injEq] at htrail
      subst htrail
      cases k with
      | zero =>
        simp only [List.getElem?_cons_zero, Option.some.injEq] at hx
        subst hx
        simpa using hanswered
      -- the first step did not end the episode, so it is under way with what that step earned
      | succ k =>
        rw [List.take_succ_cons] at hgoes ⊢
        obtain ⟨hfirst, hrest⟩ := List.forall_mem_cons.1 hgoes
        rw [List.map_cons, List.sum_cons, ← Int.add_assoc]
        exact ih (hnext hfirst) hlater hx hrest

/-- Whatever is asked for, an episode is not interrupted, and every step up to the first that ends
it is paid what it earns. -/
theorem earnings_of_episode (env : Env Sandbox) (seed : Option UInt64) (actions : List Index) :
    ∃ view entries, (env.reset engine seed).answer = .ok view ∧
      (env.reset engine seed).state.trail engine (actions.map .step) = .ok entries ∧
      ∀ k x, entries[k]? = some x → (∀ y ∈ entries.take k, y.ending = none) →
        Answered x ((entries.take (k + 1)).map (·.scoreGain engine)).sum := by
  obtain ⟨⟨view, hview⟩, hsteady⟩ := steady_reset env seed
  obtain ⟨s, hunderway⟩ := underway_reset env seed
  obtain ⟨answers, last, hrun, -⟩ := Env.run_total
    (fun env call (h : Steady env) => h.perform call) hsteady (actions.map .step)
  obtain ⟨entries, htrail, -, -⟩ := Env.trail_of_run (P := fun _ _ => True)
    (fun _ _ _ _ _ _ _ => trivial) [] trivial hrun
  refine ⟨view, entries, hview, htrail, fun k x hx hgoes => ?_⟩
  rw [← Int.zero_add (List.sum _)]
  exact hunderway.trail htrail hx hgoes

/-- Two hands of five cards beat the first blind: 220 points and 155. -/
theorem earnings_of_episode_of_two_hands :
    let env : Env Sandbox := { config := {}, seed := 4, session := none, tracker := {} }
    let actions := [1, 9, 7, 2, 5, 8, 0, 8, 3, 9, 2, 4, 0]
    ∃ entries x, (env.reset engine none).state.trail engine (actions.map .step) = .ok entries ∧
      entries[12]? = some x ∧ (∀ y ∈ entries.take 12, y.ending = none) ∧
      x.ending = some .blind ∧ Answered x 375 := by
  intro env actions
  obtain ⟨-, entries, -, htrail, hanswered⟩ := earnings_of_episode env none actions
  have houtline : ((env.reset engine none).state.trail engine (actions.map .step)).toOption.map
      (fun entries => (entries.map (·.ending), (entries.map (·.scoreGain engine)).sum)) =
        some (List.replicate 12 none ++ [some .blind], 375) := by decide +kernel
  simp only [htrail, Except.toOption, Option.map_some, Option.some.injEq, Prod.mk.injEq] at houtline
  obtain ⟨hendings, hsum⟩ := houtline
  have hlength : entries.length = 13 := by simpa using congrArg List.length hendings
  have hgoes : ∀ y ∈ entries.take 12, y.ending = none := by
    intro y hy
    have hmem := List.mem_map_of_mem (f := Env.Entry.ending) hy
    rw [List.map_take, hendings, List.take_left' List.length_replicate] at hmem
    exact List.eq_of_mem_replicate hmem
  have hlast : entries[12]?.map (·.ending) = some (some .blind) := by
    rw [← List.getElem?_map, hendings]
    rfl
  obtain ⟨x, hx, hending⟩ := Option.map_eq_some_iff.1 hlast
  have hpaid := hanswered 12 x hx hgoes
  rw [List.take_of_length_le hlength.le, hsum] at hpaid
  exact ⟨entries, x, htrail, hx, hgoes, hending, hpaid⟩

end Sandbox
end BlindArena
