import BlindArena.Proofs.Tracker.Lifecycle
import BlindArena.Proofs.Tracker.Pay

/-!
# Where figures come from

A tracker holds figures of different age: its baseline was taken at an entry of the present cycle,
its tier tells of the latest refresh, and its current figures go back to the latest refresh that was
answered, however long ago that was. Each is described here by the phases reported and the reads
answered since the run began.
-/

namespace BlindArena

namespace History
variable {reads : Nat → Option Snapshot} {i : Nat} {former later : Set Nat} {event : Prop}

/-- An event that is not answered leaves the answered ones as they are. -/
theorem answered_succ (hlater : ∀ j, j ∈ later ↔ j ∈ former ∨ j = i + 1 ∧ event)
    (hread : reads (i + 1) = none) :
    {j ∈ later | reads j ≠ none} = {j ∈ former | reads j ≠ none} := by
  ext j
  simp only [Set.mem_ofPred_eq, hlater]
  refine and_congr_left fun hj => or_iff_left ?_
  rintro ⟨rfl, -⟩
  exact hj hread

theorem unanswered_succ (hlater : ∀ j, j ∈ later ↔ j ∈ former ∨ j = i + 1 ∧ event)
    (hread : reads (i + 1) = none) (hnone : ∀ j ∈ former, reads j = none) :
    ∀ j ∈ later, reads j = none := by
  intro j hj
  rcases (hlater j).1 hj with hj | ⟨rfl, -⟩
  · exact hnone j hj
  · exact hread

end History

namespace Tracker

/-- What a baseline tells of the entries of its cycle: it is the read of the latest one that was
answered, or else what the figures were at the latest one. -/
inductive Captured (p : History) (reads : Nat → Option Snapshot) (states : List Tracker) (i : Nat) :
    Baseline → Prop
  | read {j : Nat} {figures : Snapshot} (hlatest : IsGreatest {j ∈ p.entries i | reads j ≠ none} j)
      (hread : reads j = some figures) : Captured p reads states i ⟨.engine, figures⟩
  | carried {j : Nat} {former : Tracker} (hnone : ∀ j ∈ p.entries i, reads j = none)
      (hlatest : IsGreatest (p.entries i) j) (hstate : states[j]? = some former) :
      Captured p reads states i ⟨.carried, former.current⟩

/-- What current figures tell of the refreshes of the run: they are the read of the latest one that
was answered, counted from the baseline of that moment. -/
inductive Counted (p : History) (reads : Nat → Option Snapshot) (states : List Tracker) (i : Nat) :
    Snapshot → Prop
  | never (hnone : ∀ j ∈ p.refreshings i, reads j = none) : Counted p reads states i {}
  | since {j : Nat} {figures : Snapshot} {former : Tracker} {baseline : Baseline}
      (hlatest : IsGreatest {j ∈ p.refreshings i | reads j ≠ none} j)
      (hread : reads j = some figures) (hstate : states[j]? = some former)
      (hbaseline : former.baseline = some baseline) :
      Counted p reads states i (figures.minus baseline.figures)

variable {p : History} {reads : Nat → Option Snapshot} {states : List Tracker} {i : Nat}
  {t t' : Tracker} {read : Option Snapshot}

theorem Captured.of_entries_eq {baseline : Baseline} (h : Captured p reads states i baseline)
    (heq : p.entries (i + 1) = p.entries i) : Captured p reads states (i + 1) baseline := by
  cases h with
  | read hlatest hread => exact .read (heq ▸ hlatest) hread
  | carried hnone hlatest hstate => exact .carried (heq ▸ hnone) (heq ▸ hlatest) hstate

theorem Captured.of_enters {existing : Option Baseline}
    (h : ∀ baseline, existing = some baseline → Captured p reads states i baseline)
    (hexisting : existing.isSome = true ↔ p.Started i) (henters : p.Enters (i + 1))
    (hread : reads (i + 1) = read) (hstate : states[i + 1]? = some t) :
    Captured p reads states (i + 1) (Baseline.capture existing read t.current) := by
  have hno : p (i + 1) ≠ some .blindSelect := by simp [henters.2.1]
  cases read with
  | some figures =>
    refine .read (j := i + 1) ⟨⟨henters.isGreatest.1, by simp [hread]⟩, ?_⟩ hread
    exact fun j hj => henters.isGreatest.2 hj.1
  | none =>
    have hentries (j : Nat) := History.mem_entries_succ (j := j) hno
    have hsame := History.answered_succ hentries hread
    have hcarried (hnone : ∀ j ∈ p.entries i, reads j = none) :
        Captured p reads states (i + 1) ⟨.carried, t.current⟩ :=
      .carried (History.unanswered_succ hentries hread hnone) henters.isGreatest hstate
    -- only a baseline that was read outlives an entry that is not answered
    cases existing with
    | none =>
      refine hcarried fun j hj => ?_
      have hstarted : p.Started i := ⟨j, hj⟩
      simp [← hexisting] at hstarted
    | some baseline =>
      cases h baseline rfl with
      | read hlatest hread => exact .read (hsame ▸ hlatest) hread
      | carried hnone hlatest hstate => exact hcarried hnone

theorem Counted.of_refreshings_eq {figures : Snapshot} (h : Counted p reads states i figures)
    (heq : p.refreshings (i + 1) = p.refreshings i) : Counted p reads states (i + 1) figures := by
  cases h with
  | never hnone => exact .never (heq ▸ hnone)
  | since hlatest hread hstate hbaseline => exact .since (heq ▸ hlatest) hread hstate hbaseline

/-- A refresh that is not answered keeps the figures. -/
theorem Counted.of_unanswered {figures : Snapshot} (h : Counted p reads states i figures)
    (hread : reads (i + 1) = none) : Counted p reads states (i + 1) figures := by
  have hrefreshings (j : Nat) := History.mem_refreshings_succ (p := p) (i := i) (j := j)
  have hsame := History.answered_succ hrefreshings hread
  cases h with
  | never hnone => exact .never (History.unanswered_succ hrefreshings hread hnone)
  | since hlatest hread hstate hbaseline => exact .since (hsame ▸ hlatest) hread hstate hbaseline

/-- The tracker after report `i`, by the phases and reads so far. -/
structure Sourced (p : History) (reads : Nat → Option Snapshot) (states : List Tracker) (i : Nat)
    (t : Tracker) : Prop extends Lifecycle p i t where
  captured : ∀ baseline, t.baseline = some baseline → Captured p reads states i baseline
  counted : Counted p reads states i t.current
  latest : t.tier = .engine ↔ ∃ j, IsGreatest (p.refreshings i) j ∧ reads j ≠ none
  settled : t.previous = t.current

namespace Sourced

theorem begin {first : Report} (h : p 0 = first.phase) :
    Sourced p reads states 0 (begin first) where
  toLifecycle := .begin h
  captured := by simp [Tracker.begin, arrive]
  counted := .never (by simp [History.refreshings_zero])
  latest := by simp [Tracker.begin, arrive, History.refreshings_zero, IsGreatest]
  settled := rfl

theorem tick (h : Sourced p reads states i t) : Sourced p reads states i t.tick :=
  { h with toLifecycle := h.toLifecycle.tick }

theorem captured_of_followed (h : Sourced p reads states i t)
    (hf : Followed t read (p (i + 1)) t') (hread : reads (i + 1) = read) {after : Tracker}
    (hstate : states[i + 1]? = some after) (hcurrent : after.current = t'.current) :
    ∀ baseline, t'.baseline = some baseline → Captured p reads states (i + 1) baseline := by
  have hentering := h.enters_eq_true_iff
  by_cases hselect : p (i + 1) = some .blindSelect
  · rw [hselect] at hf
    simp [hf.opened, openCycle]
  · by_cases henters : t.enters (p (i + 1)) = true
    · obtain rfl := hf.entered henters
      have hcurrent : after.current = t.current := hcurrent
      rintro _ ⟨⟩
      rw [← hcurrent]
      exact .of_enters h.captured (by rw [h.baseline, h.started]) (hentering.1 henters) hread hstate
    · have hno : ¬ p.Enters (i + 1) := mt hentering.2 henters
      rw [hf.baseline_eq hselect (by simpa using henters)]
      intro baseline hbaseline
      exact (h.captured baseline hbaseline).of_entries_eq
        (History.entries_succ_of_not_enters hselect hno)

theorem figures_of_followed (h : Sourced p reads states i t)
    (hf : Followed t read (p (i + 1)) t') (hread : reads (i + 1) = read) {after : Tracker}
    (hstate : states[i + 1]? = some after) (hbaseline : after.baseline = t'.baseline) :
    Counted p reads states (i + 1) t'.current ∧
      (t'.tier = .engine ↔ ∃ j, IsGreatest (p.refreshings (i + 1)) j ∧ reads j ≠ none) := by
  have hrefreshing := h.refreshes_eq_true_iff
  by_cases hr : t.refreshes (p (i + 1)) = true
  · have hlatest := (hrefreshing.1 hr).isGreatest
    obtain ⟨finished, hrefreshed⟩ := hf.refreshed hr
    have htier : (∃ j, IsGreatest (p.refreshings (i + 1)) j ∧ reads j ≠ none) ↔ read ≠ none := by
      rw [← hread]
      constructor
      · rintro ⟨j, hj, hjread⟩
        rwa [hlatest.unique hj]
      · intro hne
        exact ⟨i + 1, hlatest, hne⟩
    rw [htier]
    have hsome : t.baseline.isSome = true := by rw [h.baseline, started_of_refreshes hr]
    cases hrefreshed with
    | counted hfrom hcurrent =>
      refine ⟨?_, by simp⟩
      rw [Snapshot.eq_minus_of_sub hcurrent]
      refine .since (j := i + 1) ⟨⟨hlatest.1, by simp [hread]⟩, ?_⟩ hread hstate
        (hbaseline.trans hfrom)
      exact fun j hj => hlatest.2 hj.1
    | kept hnone =>
      have hnone : read = none := by
        rcases hnone with hnone | hnone
        · exact hnone
        · simp [show t.baseline = none from hnone] at hsome
      exact ⟨h.counted.of_unanswered (hread.trans hnone), by simp [hnone]⟩
  · have hsame := History.refreshings_succ_of_not (mt hrefreshing.2 hr)
    obtain ⟨hcurrent, htier⟩ := hf.figures_eq (by simpa using hr)
    rw [hcurrent, htier, hsame]
    exact ⟨h.counted.of_refreshings_eq hsame, h.latest⟩

theorem play {cue : Cue} {turn : Turn} (h : Sourced p reads states i t)
    (hphase : p (i + 1) = cue.report.phase) (hread : reads (i + 1) = cue.read)
    (hplay : cue.play t = .ok turn) (hstate : states[i + 1]? = some turn.tracker) :
    Sourced p reads states (i + 1) turn.tracker := by
  obtain ⟨seen, gains, hseen, -, -, htracker⟩ := Cue.play_ok_elim hplay
  have hlifecycle := h.toLifecycle.tick.observe hphase hseen
  obtain ⟨followed, hf, rfl⟩ := followed_of_observe hseen
  rw [← hphase] at hf
  rw [htracker] at hstate ⊢
  have hcaptured := h.tick.captured_of_followed hf hread hstate rfl
  obtain ⟨hcounted, hlatest⟩ := h.tick.figures_of_followed hf hread hstate rfl
  exact {
    toLifecycle := hlifecycle.settle _
    captured := hcaptured
    counted := hcounted
    latest := hlatest
    settled := rfl }

end Sourced

variable {first : Report} {cues : List Cue} {ms : List Move}

theorem sourced_of_moves (hrun : (begin first).moves cues = .ok ms)
    (ht : (begin first :: ms.map (·.turn.tracker))[i]? = some t) :
    Sourced (.ofReports (first :: cues.map (·.report))) (Cue.reads cues)
      (begin first :: ms.map (·.turn.tracker)) i t := by
  induction i generalizing t with
  | zero =>
    obtain rfl : begin first = t := by simpa using ht
    exact .begin rfl
  | succ i ih =>
    obtain ⟨before, cue, turn, hbefore, hcue, hplay, rfl⟩ := play_of_moves hrun ht
    exact (ih hbefore).play (Cue.phase_of_cues first hcue) (Cue.reads_of_cues hcue) hplay ht

/-- The figures a tracker holds after any report of a run, by the phases and reads up to it. -/
theorem figures_of_history (hrun : (begin first).moves cues = .ok ms) :
    let p := History.ofReports (first :: cues.map (·.report))
    let reads := Cue.reads cues
    let states := begin first :: ms.map (·.turn.tracker)
    ∀ i t, states[i]? = some t →
      ((∃ j ∈ p.entries i, reads j ≠ none) →
        ∃ j figures, IsGreatest {j ∈ p.entries i | reads j ≠ none} j ∧ reads j = some figures ∧
          t.baseline = some ⟨.engine, figures⟩) ∧
      ((p.entries i).Nonempty → (∀ j ∈ p.entries i, reads j = none) →
        ∃ j former, IsGreatest (p.entries i) j ∧ states[j]? = some former ∧
          t.baseline = some ⟨.carried, former.current⟩) ∧
      (t.tier = .engine ↔ ∃ j, IsGreatest (p.refreshings i) j ∧ reads j ≠ none) ∧
      ((∃ j ∈ p.refreshings i, reads j ≠ none) →
        ∃ j figures former baseline, IsGreatest {j ∈ p.refreshings i | reads j ≠ none} j ∧
          reads j = some figures ∧ states[j]? = some former ∧ former.baseline = some baseline ∧
          t.current = figures.minus baseline.figures) ∧
      ((∀ j ∈ p.refreshings i, reads j = none) → t.current = {}) ∧
      t.previous = t.current := by
  intro p reads states i t ht
  have h : Sourced p reads states i t := sourced_of_moves hrun ht
  have hbaseline (hentries : (p.entries i).Nonempty) :
      ∃ baseline, t.baseline = some baseline ∧ Captured p reads states i baseline := by
    have hsome : t.baseline.isSome = true := by rw [h.baseline]; exact h.started.2 hentries
    obtain ⟨baseline, hbaseline⟩ := Option.isSome_iff_exists.1 hsome
    exact ⟨baseline, hbaseline, h.captured baseline hbaseline⟩
  refine ⟨?_, ?_, h.latest, ?_, ?_, h.settled⟩
  · rintro ⟨j, hj, hread⟩
    obtain ⟨baseline, hsome, hcaptured⟩ := hbaseline ⟨j, hj⟩
    cases hcaptured with
    | read hlatest hfigures => exact ⟨_, _, hlatest, hfigures, hsome⟩
    | carried hnone => exact absurd (hnone j hj) hread
  · intro hentries hnone
    obtain ⟨baseline, hsome, hcaptured⟩ := hbaseline hentries
    cases hcaptured with
    | read hlatest => exact absurd (hnone _ hlatest.1.1) hlatest.1.2
    | carried _ hlatest hstate => exact ⟨_, _, hlatest, hstate, hsome⟩
  · rintro ⟨j, hj, hread⟩
    generalize hcurrent : t.current = current
    cases hcurrent ▸ h.counted with
    | never hnone => exact absurd (hnone j hj) hread
    | since hlatest hfigures hstate hfrom =>
      exact ⟨_, _, _, _, hlatest, hfigures, hstate, hfrom, rfl⟩
  · intro hnone
    generalize hcurrent : t.current = current
    cases hcurrent ▸ h.counted with
    | never => rfl
    | since hlatest => exact absurd (hnone _ hlatest.1.1) hlatest.1.2

/-- A blind that is entered three times: not answered, answered, and not answered again. Its figures
are still those of the first refresh, the only one that was answered. -/
theorem figures_of_history_of_three_entries :
    let cue (phase : Phase) (read : Option Snapshot) : Cue := ⟨.input phase [], read, 0, 1000⟩
    let cues := [cue .playing none, cue .playing (some ⟨50, 4⟩), cue .shop none,
      cue .playing (some ⟨60, 5⟩), cue .shop none, cue .playing none, cue .roundEnd none]
    let p := History.ofReports (.input .blindSelect [] :: cues.map (·.report))
    ∃ ms t, (begin (.input .blindSelect [])).moves cues = .ok ms ∧
      (begin (.input .blindSelect []) :: ms.map (·.turn.tracker))[7]? = some t ∧
      4 ∈ p.entries 7 ∧ 2 ∈ p.refreshings 7 ∧
      (∃ j figures, Cue.reads cues j = some figures ∧ t.baseline = some ⟨.engine, figures⟩) ∧
      (∃ j figures former baseline, Cue.reads cues j = some figures ∧
        (begin (.input .blindSelect []) :: ms.map (·.turn.tracker))[j]? = some former ∧
        former.baseline = some baseline ∧ t.current = figures.minus baseline.figures) := by
  intro cue cues p
  obtain ⟨ms, t, hrun, ht⟩ :
      ∃ ms t, (begin (.input .blindSelect [])).moves cues = .ok ms ∧
        (begin (.input .blindSelect []) :: ms.map (·.turn.tracker))[7]? = some t := ⟨_, _, rfl, rfl⟩
  have hentry : 4 ∈ p.entries 7 := ⟨by decide, by decide, by decide, rfl, by decide⟩
  have hrefresh : 2 ∈ p.refreshings 7 :=
    ⟨by decide, ⟨1, by decide, by decide, by decide, rfl, by decide⟩, Or.inr ⟨rfl, rfl⟩⟩
  obtain ⟨hbaseline, -, -, hcurrent, -⟩ := figures_of_history hrun 7 t ht
  obtain ⟨j, figures, -, hread, hsome⟩ := hbaseline ⟨4, hentry, by decide⟩
  obtain ⟨k, now, former, baseline, -, hnow, hformer, hfrom, hcounted⟩ :=
    hcurrent ⟨2, hrefresh, by decide⟩
  exact ⟨ms, t, hrun, ht, hentry, hrefresh, ⟨j, figures, hread, hsome⟩,
    k, now, former, baseline, hnow, hformer, hfrom, hcounted⟩

end Tracker
end BlindArena
