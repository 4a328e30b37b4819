import BlindArena.Tracker.Lemmas

/-!
# What a report can do to the tracker

Two relations say what refreshing and following a phase can come to, with the conditions under which
each case arises. Later statements about the tracker go by these cases and do not open the
operations.
-/

namespace BlindArena
namespace Tracker
variable {t t' : Tracker} {report : Report} {read : Option Snapshot} {phase : Option Phase}

inductive Refreshed (t : Tracker) : Option Snapshot → Tracker → Prop
  | counted {absolute current : Snapshot} {baseline : Baseline}
      (hbaseline : t.baseline = some baseline)
      (hcurrent : absolute.sub baseline.figures = .ok current) :
      Refreshed t (some absolute) { t with current := current, tier := .engine }
  | kept {read : Option Snapshot} (hnone : read = none ∨ t.baseline = none) :
      Refreshed t read { t with tier := .carried }

theorem refreshed_of_refresh (h : t.refresh read = .ok t') : Refreshed t read t' := by
  cases read with
  | none =>
    cases h
    exact .kept (Or.inl rfl)
  | some absolute =>
    unfold refresh at h
    split at h
    · rename_i baseline hread hbaseline
      cases hread
      cases hcurrent : absolute.sub baseline.figures with
      | error overflow => simp [hcurrent, Except.map] at h
      | ok current =>
        simp only [hcurrent, Except.map, Except.ok.injEq] at h
        subst h
        exact .counted hbaseline hcurrent
    · rename_i hnone
      cases h
      exact .kept (Or.inr (Option.eq_none_iff_forall_not_mem.2 fun baseline hbaseline =>
        hnone absolute baseline rfl hbaseline))

/-- Only the figures and their tier can change. -/
theorem Refreshed.eq_with (h : Refreshed t read t') :
    t' = { t with current := t'.current, tier := t'.tier } := by
  cases h <;> rfl

/-- Figures at hand are counted from the baseline if there is one. -/
theorem Refreshed.of_baseline {absolute : Snapshot} {baseline : Baseline}
    (h : Refreshed t (some absolute) t') (hbaseline : t.baseline = some baseline) :
    absolute.sub baseline.figures = .ok t'.current ∧ t'.baseline = some baseline ∧
      t'.tier = .engine := by
  cases h with
  | counted hsome hcurrent =>
    obtain rfl := Option.some.inj (hbaseline.symm.trans hsome)
    exact ⟨hcurrent, hbaseline, rfl⟩
  | kept hnone =>
    rcases hnone with hnone | hnone
    · cases hnone
    · rw [hnone] at hbaseline
      cases hbaseline

inductive Followed (t : Tracker) (read : Option Snapshot) : Option Phase → Tracker → Prop
  | opens : Followed t read (some .blindSelect) t.openCycle
  | enters (hprev : t.prevPhase ≠ some .playing) :
      Followed t read (some .playing) (t.startBlind read)
  | goesOn {t' : Tracker} (hprev : t.prevPhase = some .playing) (hstarted : t.started = true)
      (h : Refreshed t read t') : Followed t read (some .playing) t'
  | finishes {t' : Tracker} (hstarted : t.started = true)
      (h : Refreshed { t with finished := true } read t') : Followed t read (some .roundEnd) t'
  | idles {phase : Option Phase} (hselect : phase ≠ some .blindSelect)
      (hplay : phase = some .playing → t.prevPhase = some .playing ∧ t.started = false)
      (hend : phase = some .roundEnd → t.started = false) : Followed t read phase t

theorem followed_of_follow (h : t.follow phase read = .ok t') : Followed t read phase t' := by
  unfold follow at h
  split at h
  · cases h
    exact .opens
  · split at h
    · rename_i henters
      cases h
      exact .enters (by simpa [Tracker.enters] using henters)
    · rename_i henters
      have hprev : t.prevPhase = some .playing := by simpa [Tracker.enters] using henters
      split at h
      · rename_i hstarted
        exact .goesOn hprev hstarted (refreshed_of_refresh h)
      · rename_i hstarted
        cases h
        exact .idles (by simp) (fun _ => ⟨hprev, by simpa using hstarted⟩) (by simp)
  · split at h
    · rename_i hstarted
      exact .finishes hstarted (refreshed_of_refresh h)
    · rename_i hstarted
      cases h
      exact .idles (by simp) (by simp) (fun _ => by simpa using hstarted)
  · rename_i hselect hplay hend
    cases h
    exact .idles hselect (fun hphase => absurd hphase hplay) fun hphase => absurd hphase hend

/-- Observing is following and arriving. -/
theorem followed_of_observe (h : t.observe report read = .ok t') :
    ∃ followed, Followed t read report.phase followed ∧ t' = followed.arrive report := by
  unfold observe at h
  cases hfollow : t.follow report.phase read with
  | error overflow => simp [hfollow, Except.map] at h
  | ok followed =>
    simp only [hfollow, Except.map, Except.ok.injEq] at h
    exact ⟨followed, followed_of_follow hfollow, h.symm⟩

/-- The figures of a running blind are brought up to date by a report of this phase. -/
def refreshes (t : Tracker) (phase : Option Phase) : Bool :=
  t.started && (phase = some .roundEnd || phase = some .playing && t.prevPhase = some .playing)

theorem started_of_refreshes (h : t.refreshes phase = true) : t.started = true := by
  simp only [refreshes, Bool.and_eq_true] at h
  exact h.1

theorem refreshes_eq_false_of_enters (h : t.enters phase = true) : t.refreshes phase = false := by
  simp only [Tracker.enters, Bool.and_eq_true, decide_eq_true_eq] at h
  obtain ⟨rfl, hprev⟩ := h
  simp [refreshes, hprev]

theorem Followed.refreshed (hf : Followed t read phase t') (h : t.refreshes phase = true) :
    ∃ finished, Refreshed { t with finished := finished } read t' := by
  have hstarted := started_of_refreshes h
  cases hf with
  | opens => simp [refreshes] at h
  | enters hprev => simp [refreshes, hprev] at h
  | goesOn hprev hrunning hr => exact ⟨t.finished, hr⟩
  | finishes hrunning hr => exact ⟨true, hr⟩
  | idles hselect hplay hend =>
    simp only [refreshes, hstarted, Bool.true_and, Bool.or_eq_true, decide_eq_true_eq,
      Bool.and_eq_true] at h
    rcases h with hround | ⟨hplaying, -⟩
    · simp [hend hround] at hstarted
    · simp [(hplay hplaying).2] at hstarted

theorem wantsRead_eq (t : Tracker) (phase : Option Phase) :
    t.wantsRead phase = (t.enters phase || t.refreshes phase) := by
  unfold wantsRead
  split
  · by_cases hprev : t.prevPhase = some .playing <;> simp [Tracker.enters, refreshes, hprev]
  · simp [Tracker.enters, refreshes]
  · rename_i hplay hend
    simp only [Tracker.enters, refreshes]
    cases phase with
    | none => simp
    | some phase => cases phase <;> simp_all

theorem Followed.entered (hf : Followed t read phase t') (h : t.enters phase = true) :
    t' = t.startBlind read := by
  simp only [Tracker.enters, Bool.and_eq_true, decide_eq_true_eq] at h
  obtain ⟨rfl, hprev⟩ := h
  cases hf with
  | enters => rfl
  | goesOn hplaying => exact absurd hplaying hprev
  | idles hselect hplay hend => exact absurd (hplay rfl).1 hprev

/-- Without a read no figures change, and a blind that is running was so before. -/
theorem Followed.unread (hf : Followed t read phase t') (h : t.wantsRead phase = false) :
    t'.current = t.current ∧
      (t'.started = true → t.started = true ∧ t'.baseline = t.baseline) := by
  cases hf with
  | opens => simp [openCycle]
  | enters hprev => simp [wantsRead, Tracker.enters, hprev] at h
  | goesOn hprev hstarted hr => simp [wantsRead, hstarted] at h
  | finishes hstarted hr => simp [wantsRead, hstarted] at h
  | idles hselect hplay hend => exact ⟨rfl, fun hstarted => ⟨hstarted, rfl⟩⟩

theorem Followed.opened (hf : Followed t read (some .blindSelect) t') : t' = t.openCycle := by
  cases hf with
  | opens => rfl
  | idles hselect => exact absurd rfl hselect

/-- Only the selection of a blind and an entry of play touch the baseline. -/
theorem Followed.baseline_eq (hf : Followed t read phase t') (hselect : phase ≠ some .blindSelect)
    (h : t.enters phase = false) : t'.baseline = t.baseline := by
  cases hf with
  | opens => exact absurd rfl hselect
  | enters hprev => simp [Tracker.enters, hprev] at h
  | goesOn hprev hstarted hr => rw [hr.eq_with]
  | finishes hstarted hr => rw [hr.eq_with]
  | idles hselect hplay hend => rfl

/-- Only a refresh touches the figures and their tier. -/
theorem Followed.figures_eq (hf : Followed t read phase t') (h : t.refreshes phase = false) :
    t'.current = t.current ∧ t'.tier = t.tier := by
  cases hf with
  | opens => exact ⟨rfl, rfl⟩
  | enters hprev => exact ⟨rfl, rfl⟩
  | goesOn hprev hstarted hr => simp [refreshes, hprev, hstarted] at h
  | finishes hstarted hr => simp [refreshes, hstarted] at h
  | idles hselect hplay hend => exact ⟨rfl, rfl⟩

theorem Followed.previous_eq (hf : Followed t read phase t') : t'.previous = t.previous := by
  cases hf with
  | opens => rfl
  | enters hprev => rfl
  | goesOn hprev hstarted hr => rw [hr.eq_with]
  | finishes hstarted hr => rw [hr.eq_with]
  | idles hselect hplay hend => rfl

/-- What holds of baselines goes on to hold if it holds of one that is taken at an entry. -/
theorem Followed.baseline_elim {P : Baseline → Prop} (hf : Followed t read phase t')
    (h : ∀ baseline, t.baseline = some baseline → P baseline)
    (hentry : t.enters phase = true → P (Baseline.capture t.baseline read t.current)) :
    ∀ baseline, t'.baseline = some baseline → P baseline := by
  by_cases hselect : phase = some .blindSelect
  · subst hselect
    simp [hf.opened, openCycle]
  · by_cases henters : t.enters phase = true
    · obtain rfl := hf.entered henters
      rintro _ ⟨⟩
      exact hentry henters
    · rw [hf.baseline_eq hselect (by simpa using henters)]
      exact h

/-- What holds of the figures goes on to hold if it holds of those that are counted anew. -/
theorem Followed.current_elim {P : Snapshot → Prop} (hf : Followed t read phase t')
    (h : P t.current)
    (hcounted : ∀ absolute baseline current, t.refreshes phase = true → read = some absolute →
      t.baseline = some baseline → absolute.sub baseline.figures = .ok current → P current) :
    P t'.current := by
  by_cases hr : t.refreshes phase = true
  · obtain ⟨finished, hrefreshed⟩ := hf.refreshed hr
    cases hrefreshed with
    | counted hbaseline hcurrent => exact hcounted _ _ _ hr rfl hbaseline hcurrent
    | kept hnone => exact h
  · rwa [(hf.figures_eq (by simpa using hr)).1]

/-! ## When nothing overflows -/

theorem exists_refresh (h : ∀ absolute baseline, read = some absolute → t.baseline = some baseline →
    ∃ current, absolute.sub baseline.figures = .ok current) : ∃ t', t.refresh read = .ok t' := by
  unfold refresh
  split
  · rename_i absolute baseline hbaseline
    obtain ⟨current, hcurrent⟩ := h absolute baseline rfl hbaseline
    simp [hcurrent, Except.map]
  · exact ⟨_, rfl⟩

theorem exists_follow (h : ∀ absolute baseline, t.refreshes phase = true → read = some absolute →
    t.baseline = some baseline → ∃ current, absolute.sub baseline.figures = .ok current) :
    ∃ t', t.follow phase read = .ok t' := by
  unfold follow
  split
  · exact ⟨_, rfl⟩
  · split
    · exact ⟨_, rfl⟩
    · rename_i hgoes
      have hprev : t.prevPhase = some .playing := by simpa [Tracker.enters] using hgoes
      split
      · rename_i hstarted
        exact exists_refresh fun absolute baseline =>
          h absolute baseline (by simp [refreshes, hprev, hstarted])
      · exact ⟨_, rfl⟩
  · split
    · rename_i hstarted
      exact exists_refresh (t := { t with finished := true }) fun absolute baseline =>
        h absolute baseline (by simp [refreshes, hstarted])
    · exact ⟨_, rfl⟩
  · exact ⟨_, rfl⟩

/-- A turn succeeds when its figures can be counted from the baseline and from the turn before. -/
theorem exists_turn (hcounts : ∀ absolute baseline, t.refreshes report.phase = true →
      read = some absolute → t.baseline = some baseline →
        ∃ current, absolute.sub baseline.figures = .ok current)
    (hmoves : ∀ t', Followed t.tick read report.phase t' →
      ∃ moved, t'.current.sub t'.previous = .ok moved) (penalty : Float32) (budget : Nat) :
    ∃ turn, t.turn report read penalty budget = .ok turn := by
  obtain ⟨followed, hfollow⟩ := exists_follow (t := t.tick) hcounts
  obtain ⟨moved, hmoved⟩ := hmoves followed (followed_of_follow hfollow)
  have hobserve : t.tick.observe report read = .ok (followed.arrive report) := by
    simp only [observe, hfollow, Except.map]
  have hshape : Breakdown.shape (followed.arrive report) report.phase penalty =
      .ok (.ofGains ⟨max moved.score 0, max moved.money 0⟩
        ((followed.arrive report).bonusDue report.phase) penalty) := by
    simp only [Breakdown.shape, gains, arrive, hmoved]
    rfl
  exact ⟨_, turn_eq_ok_iff.2 ⟨_, _, hobserve, hshape, rfl⟩⟩

end Tracker
end BlindArena
