import BlindArena.Proofs.History
import BlindArena.Proofs.Tracker.Follow

/-!
# The blind as the history of phases has it

However a tracker has been driven since a run began, its flags say what the phases reported so far
say: the blind is started when the present cycle has an entry of play, and finished when a round end
followed the first of them. A baseline is held exactly while the blind is started, so no figures are
ever read for a blind without one.
-/

namespace BlindArena
namespace Tracker

/-- What can be asked of a tracker in the course of a run. -/
inductive Call where
  | tick
  | observe (report : Report) (read : Option Snapshot)
  | settle (bonus : Bool)

def Call.apply (t : Tracker) : Call → Except Overflow Tracker
  | tick => .ok t.tick
  | observe report read => t.observe report read
  | settle bonus => .ok (t.settle bonus)

def run (t : Tracker) : List Call → Except Overflow Tracker
  | [] => .ok t
  | call :: calls => (call.apply t).bind fun t => t.run calls

/-- The reports among the calls. -/
def Call.reports : List Call → List Report
  | [] => []
  | .observe report _ :: calls => report :: reports calls
  | .tick :: calls | .settle _ :: calls => reports calls

/-- The tracker after report `i` of a history. -/
structure Lifecycle (p : History) (i : Nat) (t : Tracker) : Prop where
  phase : t.phase = p i
  prevPhase : t.prevPhase = p i
  started : t.started = true ↔ p.Started i
  finished : t.finished = true ↔ p.Finished i
  baseline : t.baseline.isSome = t.started

namespace Lifecycle
variable {p : History} {i : Nat} {t t' : Tracker} {report : Report} {read : Option Snapshot}

theorem begin {report : Report} (h : p 0 = report.phase) : Lifecycle p 0 (begin report) where
  phase := h.symm
  prevPhase := h.symm
  started := by simp [Tracker.begin, arrive, History.not_started_zero]
  finished := by simp [Tracker.begin, arrive, History.not_finished_zero]
  baseline := rfl

theorem tick (h : Lifecycle p i t) : Lifecycle p i t.tick where
  phase := h.phase
  prevPhase := h.prevPhase
  started := h.started
  finished := h.finished
  baseline := h.baseline

theorem settle (h : Lifecycle p i t) (bonus : Bool) : Lifecycle p i (t.settle bonus) where
  phase := h.phase
  prevPhase := h.prevPhase
  started := h.started
  finished := h.finished
  baseline := h.baseline

theorem enters_iff (h : Lifecycle p i t) :
    p.Enters (i + 1) ↔ p (i + 1) = some .playing ∧ t.prevPhase ≠ some .playing := by
  simp [History.Enters, h.prevPhase]

theorem enters_eq_true_iff (h : Lifecycle p i t) :
    t.enters (p (i + 1)) = true ↔ p.Enters (i + 1) := by
  simp [h.enters_iff, Tracker.enters]

theorem refreshes_eq_true_iff (h : Lifecycle p i t) :
    t.refreshes (p (i + 1)) = true ↔ p.Refreshes (i + 1) := by
  simp [History.refreshes_succ, refreshes, h.prevPhase, h.started]

/-- The flags and the baseline after a phase, before its report arrives. -/
theorem of_followed (h : Lifecycle p i t) (hf : Followed t read (p (i + 1)) t') :
    (t'.started = true ↔ p.Started (i + 1)) ∧ (t'.finished = true ↔ p.Finished (i + 1)) ∧
      t'.baseline.isSome = t'.started := by
  have hstarted := h.started
  have hfinished := h.finished
  have hbaseline := h.baseline
  have henters := h.enters_iff
  generalize hphase : p (i + 1) = phase at hf henters
  cases hf with
  | opens =>
    simp [openCycle, History.not_started_of_blindSelect hphase,
      History.not_finished_of_blindSelect hphase]
  | enters hprev =>
    have hno : p (i + 1) ≠ some .blindSelect := by simp [hphase]
    refine ⟨?_, ?_, rfl⟩
    · simp [startBlind, History.started_succ hno, henters, hprev]
    · simp [startBlind, History.finished_succ hno, hfinished, hphase]
  | goesOn hprev hrunning hr =>
    have hno : p (i + 1) ≠ some .blindSelect := by simp [hphase]
    rw [hr.eq_with]
    refine ⟨?_, ?_, hbaseline⟩
    · simp [History.started_succ hno, henters, hprev, hstarted]
    · simp [History.finished_succ hno, hfinished, hphase]
  | finishes hrunning hr =>
    have hno : p (i + 1) ≠ some .blindSelect := by simp [hphase]
    rw [hr.eq_with]
    refine ⟨?_, ?_, hbaseline⟩
    · simp [History.started_succ hno, henters, hstarted]
    · simp [History.finished_succ hno, hphase, ← hstarted, hrunning]
  | idles hselect hplay hend =>
    have hno : p (i + 1) ≠ some .blindSelect := by rwa [hphase]
    -- the report is no entry and no round end of a running blind
    refine ⟨?_, ?_, hbaseline⟩
    · rw [History.started_succ hno, henters, hstarted]
      constructor
      · exact Or.inl
      · rintro (hs | ⟨hplaying, hprev⟩)
        · exact hs
        · exact absurd (hplay hplaying).1 hprev
    · rw [History.finished_succ hno, hfinished, ← hstarted, hphase]
      constructor
      · exact Or.inl
      · rintro (hs | ⟨hrunning, hround⟩)
        · exact hs
        · simp [hend hround] at hrunning

theorem observe (h : Lifecycle p i t) (hphase : p (i + 1) = report.phase)
    (ho : t.observe report read = .ok t') : Lifecycle p (i + 1) t' := by
  obtain ⟨followed, hf, rfl⟩ := followed_of_observe ho
  rw [← hphase] at hf
  obtain ⟨hstarted, hfinished, hbaseline⟩ := h.of_followed hf
  exact ⟨hphase.symm, hphase.symm, hstarted, hfinished, hbaseline⟩

theorem of_run {calls : List Call} (h : Lifecycle p i t)
    (hp : ∀ k report, (Call.reports calls)[k]? = some report → p (i + 1 + k) = report.phase)
    (hrun : t.run calls = .ok t') : Lifecycle p (i + (Call.reports calls).length) t' := by
  induction calls generalizing i t with
  | nil =>
    cases hrun
    exact h
  | cons call calls ih =>
    cases call with
    | tick => exact ih h.tick hp hrun
    | settle bonus => exact ih (h.settle bonus) hp hrun
    | observe report read =>
      cases ho : t.observe report read with
      | error overflow => simp [run, Call.apply, ho, Except.bind] at hrun
      | ok seen =>
        simp only [run, Call.apply, ho, Except.bind] at hrun
        have hnext := ih (h.observe (hp 0 report rfl) ho) (fun k later hk => by
          rw [Nat.add_right_comm]
          exact hp (k + 1) later hk) hrun
        rwa [Nat.add_right_comm] at hnext

end Lifecycle

/-- A running blind that is refreshed with figures at hand has a baseline to count them from. -/
theorem observe_of_refreshes {t t' : Tracker} {report : Report} {absolute : Snapshot}
    (hbaseline : t.baseline.isSome = t.started) (hr : t.refreshes report.phase = true)
    (ho : t.observe report (some absolute) = .ok t') :
    ∃ baseline, t.baseline = some baseline ∧ absolute.sub baseline.figures = .ok t'.current ∧
      t'.tier = .engine := by
  obtain ⟨followed, hf, rfl⟩ := followed_of_observe ho
  obtain ⟨finished, h⟩ := hf.refreshed hr
  rw [started_of_refreshes hr] at hbaseline
  obtain ⟨baseline, hsome⟩ := Option.isSome_iff_exists.1 hbaseline
  obtain ⟨hcurrent, -, htier⟩ := h.of_baseline hsome
  exact ⟨baseline, hsome, hcurrent, htier⟩

theorem legal_of_run {calls : List Call} {t t' : Tracker} {last : Report}
    (h : t.legal = last.legal) (hrun : t.run calls = .ok t') :
    t'.legal = ((last :: Call.reports calls).getLast (List.cons_ne_nil _ _)).legal := by
  induction calls generalizing t last with
  | nil =>
    cases hrun
    exact h
  | cons call calls ih =>
    cases call with
    | tick => exact ih (t := t.tick) h hrun
    | settle bonus => exact ih (t := t.settle bonus) h hrun
    | observe report read =>
      cases ho : t.observe report read with
      | error overflow => simp [run, Call.apply, ho, Except.bind] at hrun
      | ok seen =>
        simp only [run, Call.apply, ho, Except.bind] at hrun
        obtain ⟨followed, -, rfl⟩ := followed_of_observe ho
        have hlegal : (followed.arrive report).legal = report.legal := rfl
        simpa [Call.reports] using ih hlegal hrun

/-- The tracker after any calls since the first report of a run, by the phases of the reports. -/
theorem lifecycle_of_history {first : Report} {calls : List Call} {t : Tracker}
    (hrun : (begin first).run calls = .ok t) :
    let reports := first :: Call.reports calls
    let p := History.ofReports reports
    let m := (Call.reports calls).length
    (t.started = true ↔ ∃ j, p.opening m < j ∧ j ≤ m ∧ p.Enters j) ∧
    (t.finished = true ↔
      ∃ j, IsLeast {j | p.opening m < j ∧ j ≤ m ∧ p.Enters j} j ∧
        ∃ k, j < k ∧ k ≤ m ∧ p k = some .roundEnd) ∧
    (t.baseline.isSome = true ↔ t.started = true) ∧
    (t.finished = true → t.started = true) ∧
    t.phase = p m ∧ t.prevPhase = p m ∧
    t.legal = (reports.getLast (List.cons_ne_nil _ _)).legal ∧
    ∀ report absolute t', t.refreshes report.phase = true →
      t.observe report (some absolute) = .ok t' →
        ∃ baseline, t.baseline = some baseline ∧
          absolute.sub baseline.figures = .ok t'.current ∧ t'.tier = .engine := by
  intro reports p m
  have hl : Lifecycle p m t := by
    have h0 : Lifecycle p 0 (begin first) := Lifecycle.begin rfl
    have hm := h0.of_run (fun k report hk => by
      simp [p, reports, History.ofReports, Nat.add_comm 1 k, hk]) hrun
    rwa [Nat.zero_add] at hm
  refine ⟨hl.started, hl.finished, by rw [hl.baseline], ?_, hl.phase, hl.prevPhase,
    legal_of_run rfl hrun, ?_⟩
  · intro hfinished
    exact hl.started.2 (hl.finished.1 hfinished).started
  · intro report absolute t' hr ho
    exact observe_of_refreshes hl.baseline hr ho

/-- A run that begins in play, loses sight of the phase and finds it again: only then is play
entered, and the round end after that finishes the blind. -/
theorem lifecycle_of_history_of_reentry :
    let calls : List Call :=
      [.observe (.input .playing []) none, .tick, .observe (.progressed none) (some ⟨7, 7⟩),
        .observe (.input .playing [⟨3, "play"⟩]) (some ⟨5, 1⟩), .settle false,
        .observe (.input .roundEnd [⟨0, "cash out"⟩]) (some ⟨9, 4⟩)]
    let p := History.ofReports (.input .playing [] :: Call.reports calls)
    ∃ t, (begin (.input .playing [])).run calls = .ok t ∧
      (∃ j, p.opening 4 < j ∧ j ≤ 4 ∧ p.Enters j) ∧ t.baseline.isSome = true ∧
      t.prevPhase = some .roundEnd ∧ t.legal = [0] := by
  intro calls p
  obtain ⟨t, hrun, hstarted⟩ :
      ∃ t, (begin (.input .playing [])).run calls = .ok t ∧ t.started = true := ⟨_, rfl, rfl⟩
  have h := lifecycle_of_history hrun
  exact ⟨t, hrun, h.1.1 hstarted, h.2.2.1.2 hstarted, h.2.2.2.2.2.1, h.2.2.2.2.2.2.1⟩

end Tracker
end BlindArena
