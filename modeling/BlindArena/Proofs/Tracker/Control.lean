import BlindArena.Proofs.Tracker.Turns
import Mathlib.Data.List.Forall2

/-!
# Control does not depend on figures

Taken away the figures, what is left of a tracker controls the episode. A turn leaves the control
that it would leave without a read, so runs of turns that differ in their reads only have the same
control all along, and with it the same bonuses and endings.
-/

namespace BlindArena

namespace Tracker

/-- The tracker without its figures. -/
def control (t : Tracker) : Tracker :=
  { t with baseline := none, current := {}, previous := {}, tier := .carried }

variable {t t' u u' : Tracker} {report : Report} {read read' : Option Snapshot}
  {phase : Option Phase}

/-- Trackers of the same control differ in figures only. -/
theorem eq_with_of_control (h : t.control = u.control) :
    t = { u with
      baseline := t.baseline, current := t.current, previous := t.previous, tier := t.tier } := by
  obtain ⟨hphase, hprev, hstarted, hfinished, hpaid, -, -, -, -, hsteps, hlegal⟩ := Tracker.mk.inj h
  rw [← hphase, ← hprev, ← hstarted, ← hfinished, ← hpaid, ← hsteps, ← hlegal]

theorem legal_of_control (h : t.control = u.control) : t.legal = u.legal := by
  have hlegal : t.control.legal = u.control.legal := by rw [h]
  exact hlegal

theorem bonusDue_control (t : Tracker) (phase : Option Phase) :
    t.control.bonusDue phase = t.bonusDue phase := rfl

theorem wantsRead_control (t : Tracker) (phase : Option Phase) :
    t.control.wantsRead phase = t.wantsRead phase := rfl

theorem decide_control (report : Report) (t : Tracker) (budget : Nat) :
    Ending.decide report t.control budget = Ending.decide report t budget := rfl

theorem control_settle (t : Tracker) (bonus : Bool) :
    (t.settle bonus).control = t.control.settle bonus := rfl

/-- A read that is not wanted changes nothing. -/
theorem observe_of_not_wantsRead (h : t.wantsRead report.phase = false) :
    t.observe report read = t.observe report none := by
  have hfollow : t.follow report.phase read = t.follow report.phase none := by
    unfold follow
    split
    · rfl
    · rename_i hplay
      obtain ⟨henters, hstarted⟩ : t.enters report.phase = false ∧ t.started = false := by
        simpa [wantsRead, hplay] using h
      simp [henters, hstarted]
    · rename_i hend
      have hstarted : t.started = false := by simpa [wantsRead, hend] using h
      simp [hstarted]
    · rfl
  rw [observe, observe, hfollow]

theorem control_of_follow (h : t.follow phase read = .ok t') :
    (t.control.follow phase none).map control = .ok t'.control := by
  cases followed_of_follow h with
  | opens => rfl
  | enters hprev => simp [follow, Tracker.enters, control, startBlind, hprev, Except.map]
  | goesOn hprev hstarted hr =>
    rw [hr.eq_with]
    simp [follow, Tracker.enters, control, refresh, hprev, hstarted, Except.map]
  | finishes hstarted hr =>
    rw [hr.eq_with]
    simp [follow, control, finishBlind, refresh, hstarted, Except.map]
  | idles hselect hplay hend =>
    have hidle : t.control.follow phase none = .ok t.control := by
      unfold follow
      split
      · exact absurd rfl hselect
      · obtain ⟨hprev, hstarted⟩ := hplay rfl
        simp [Tracker.enters, control, hprev, hstarted]
      · simp [control, hend rfl]
      · rfl
    rw [hidle]
    rfl

/-- The control after a report is that of a run without reads. -/
theorem control_of_observe (h : t.observe report read = .ok t') :
    (t.control.observe report none).map control = .ok t'.control := by
  unfold observe at h ⊢
  cases hfollow : t.follow report.phase read with
  | error overflow => simp [hfollow, Except.map] at h
  | ok followed =>
    simp only [hfollow, Except.map, Except.ok.injEq] at h
    subst h
    have hcontrol := control_of_follow hfollow
    cases hunread : t.control.follow report.phase none with
    | error overflow => simp [hunread, Except.map] at hcontrol
    | ok unread =>
      simp only [hunread, Except.map, Except.ok.injEq] at hcontrol ⊢
      exact congrArg (fun v => v.arrive report) hcontrol

theorem control_observe_eq (hc : t.control = u.control) (ht : t.observe report read = .ok t')
    (hu : u.observe report read' = .ok u') : t'.control = u'.control := by
  have htc := control_of_observe ht
  have huc := control_of_observe hu
  rw [hc, huc] at htc
  exact (Except.ok.inj htc).symm

end Tracker

/-- Turns that differ in figures only. -/
structure Turn.Agrees (turn turn' : Turn) : Prop where
  control : turn.tracker.control = turn'.tracker.control
  bonus : turn.shaped.bonus = turn'.shaped.bonus
  step : turn.shaped.step = turn'.shaped.step
  remap : turn.shaped.remap = turn'.shaped.remap
  ending : turn.ending = turn'.ending

/-- What a turn is given beside the read. -/
def Cue.unread (cue : Cue) : Cue := { cue with read := none }

/-- Moves that differ in figures only; either both want a read or neither does. -/
structure Move.Agrees (m m' : Move) : Prop extends Turn.Agrees m.turn m'.turn where
  wants : m.before.wantsRead m.cue.report.phase = m'.before.wantsRead m'.cue.report.phase

namespace Tracker
variable {t u : Tracker} {report : Report} {read read' : Option Snapshot}

theorem turn_agrees {penalty : Float32} {budget : Nat} {turn turn' : Turn}
    (hc : t.control = u.control) (ht : t.turn report read penalty budget = .ok turn)
    (hu : u.turn report read' penalty budget = .ok turn') : turn.Agrees turn' := by
  obtain ⟨seen, shaped, hseen, hshaped, rfl⟩ := turn_eq_ok_iff.1 ht
  obtain ⟨seen', shaped', hseen', hshaped', rfl⟩ := turn_eq_ok_iff.1 hu
  obtain ⟨gains, rfl⟩ := Breakdown.shape_ok_elim hshaped
  obtain ⟨gains', rfl⟩ := Breakdown.shape_ok_elim hshaped'
  have htick : t.tick.control = u.tick.control := congrArg tick hc
  have hcontrol := control_observe_eq htick hseen hseen'
  have hdue : seen.bonusDue report.phase = seen'.bonusDue report.phase := by
    rw [← bonusDue_control, hcontrol, bonusDue_control]
  have hsettled : (seen.settle (seen.bonusDue report.phase)).control =
      (seen'.settle (seen'.bonusDue report.phase)).control := by
    rw [control_settle, control_settle, hcontrol, hdue]
  simp only [Breakdown.paid_ofGains]
  refine ⟨hsettled, ?_, rfl, rfl, ?_⟩
  · simp [Breakdown.ofGains, hdue]
  · rw [← decide_control, hsettled, decide_control]

theorem agrees_of_moves {cues cues' : List Cue} {ms ms' : List Move} (hc : t.control = u.control)
    (hsame : cues.map Cue.unread = cues'.map Cue.unread) (ht : t.moves cues = .ok ms)
    (hu : u.moves cues' = .ok ms') : List.Forall₂ Move.Agrees ms ms' := by
  induction cues generalizing t u cues' ms ms' with
  | nil =>
    obtain rfl : cues' = [] := by simpa using hsame.symm
    cases ht
    cases hu
    exact .nil
  | cons cue cues ih =>
    cases cues' with
    | nil => cases hsame
    | cons cue' cues' =>
      obtain ⟨hcue, hrest⟩ := List.cons.inj hsame
      obtain ⟨report, read, penalty, budget⟩ := cue
      obtain ⟨report', read', penalty', budget'⟩ := cue'
      obtain ⟨rfl, -, rfl, rfl⟩ := Cue.mk.inj hcue
      obtain ⟨turn, later, hplay, hlater, rfl⟩ := moves_cons_ok_elim ht
      obtain ⟨turn', later', hplay', hlater', rfl⟩ := moves_cons_ok_elim hu
      have hagrees := turn_agrees hc hplay hplay'
      refine .cons { hagrees with wants := ?_ } (ih hagrees.control hrest hlater hlater')
      rw [← wantsRead_control, hc, wantsRead_control]

end Tracker
end BlindArena
