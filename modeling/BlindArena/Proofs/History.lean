import BlindArena.Report
import Mathlib.Data.Nat.Find
import Mathlib.Order.Bounds.Basic
import Mathlib.Order.WellFounded

/-!
# Histories of phases

A history gives the phase of each report of a run by the number of the report; report 0 is the one
the run began with. Every later selection of a blind opens a new cycle. Play is entered by a report
of play that does not follow another one, and the report a run begins with enters nothing.
-/

namespace BlindArena

abbrev History := Nat → Option Phase

namespace History

/-- The phases of reports in a row. -/
def ofReports (reports : List Report) : History := fun i => reports[i]?.bind (·.phase)

variable (p : History) {i j k : Nat}

/-- The selection that opened the cycle of a report, or 0 in the cycle that none opened. -/
def opening (i : Nat) : Nat := Nat.findGreatest (fun k => p k = some .blindSelect) i

def Enters (j : Nat) : Prop := 0 < j ∧ p j = some .playing ∧ p (j - 1) ≠ some .playing

/-- Where play is entered in the cycle of a report, up to that report. -/
def entries (i : Nat) : Set Nat := {j | p.opening i < j ∧ j ≤ i ∧ p.Enters j}

def Started (i : Nat) : Prop := (p.entries i).Nonempty

/-- The round end came after the first entry of the cycle. -/
def Finished (i : Nat) : Prop :=
  ∃ j, IsLeast (p.entries i) j ∧ ∃ k, j < k ∧ k ≤ i ∧ p k = some .roundEnd

/-- The round ends of a cycle that come after an entry of it. -/
def closings (c : Nat) : Set Nat :=
  {i | p.opening i = c ∧ p i = some .roundEnd ∧ ∃ j < i, p.opening j = c ∧ p.Enters j}

/-- The figures of a started blind are brought up to date: by a round end, or by play that goes on.
-/
def Refreshes (i : Nat) : Prop :=
  p.Started i ∧ (p i = some .roundEnd ∨ p i = some .playing ∧ p (i - 1) = some .playing)

/-- Where that happens in the run up to a report. -/
def refreshings (i : Nat) : Set Nat := {j | j ≤ i ∧ p.Refreshes j}

/-! ## Cycles -/

theorem opening_le (i : Nat) : p.opening i ≤ i := Nat.findGreatest_le i

variable {p}

theorem opening_of_blindSelect (h : p i = some .blindSelect) : p.opening i = i :=
  Nat.findGreatest_eq h

theorem opening_succ (h : p (i + 1) ≠ some .blindSelect) : p.opening (i + 1) = p.opening i :=
  Nat.findGreatest_of_not h

/-- Reports are of one cycle when no selection lies between them. -/
theorem opening_eq_of_le (hij : i ≤ j)
    (hno : ∀ k, i < k → k ≤ j → p k ≠ some .blindSelect) : p.opening j = p.opening i := by
  induction j, hij using Nat.le_induction with
  | base => rfl
  | succ j hij ih =>
    rw [opening_succ (hno (j + 1) (by omega) le_rfl)]
    exact ih fun k hik hkj => hno k hik (by omega)

theorem ne_blindSelect_of_opening_lt (hi : p.opening i < k) (hk : k ≤ i) :
    p k ≠ some .blindSelect := by
  intro hselect
  have := Nat.le_findGreatest (P := fun k => p k = some .blindSelect) hk hselect
  unfold opening at hi
  omega

theorem opening_eq_of_opening_lt (hj : p.opening i < j) (hji : j ≤ i) :
    p.opening j = p.opening i :=
  (opening_eq_of_le hji fun _ hk hki => ne_blindSelect_of_opening_lt (by omega) hki).symm

/-! ## Entries -/

theorem Enters.opening_lt (h : p.Enters j) : p.opening j < j := by
  obtain ⟨hpos, hplay, -⟩ := h
  apply lt_of_le_of_ne (p.opening_le j)
  intro heq
  have hselect := (Nat.findGreatest_eq_iff.1 heq).2.1 (by omega)
  rw [hplay] at hselect
  cases hselect

theorem entries_of_blindSelect (h : p i = some .blindSelect) : p.entries i = ∅ := by
  ext j
  simp only [entries, opening_of_blindSelect h, Set.mem_ofPred_eq, Set.mem_empty_iff_false,
    iff_false]
  omega

theorem entries_zero : p.entries 0 = ∅ := by
  ext j
  simp only [entries, Set.mem_ofPred_eq, Set.mem_empty_iff_false, iff_false]
  omega

theorem mem_entries_succ (h : p (i + 1) ≠ some .blindSelect) :
    j ∈ p.entries (i + 1) ↔ j ∈ p.entries i ∨ j = i + 1 ∧ p.Enters (i + 1) := by
  have hle := p.opening_le i
  simp only [entries, Set.mem_ofPred_eq, opening_succ h]
  constructor
  · rintro ⟨hlt, hj, henters⟩
    rcases Nat.lt_or_ge i j with hij | hji
    · obtain rfl : j = i + 1 := by omega
      exact Or.inr ⟨rfl, henters⟩
    · exact Or.inl ⟨hlt, hji, henters⟩
  · rintro (⟨hlt, hj, henters⟩ | ⟨rfl, henters⟩)
    · exact ⟨hlt, by omega, henters⟩
    · exact ⟨by omega, le_rfl, henters⟩

theorem entries_succ_of_not_enters (h : p (i + 1) ≠ some .blindSelect)
    (hno : ¬ p.Enters (i + 1)) : p.entries (i + 1) = p.entries i := by
  ext j
  simp [mem_entries_succ h, hno]

theorem Enters.isGreatest (h : p.Enters i) : IsGreatest (p.entries i) i :=
  ⟨⟨h.opening_lt, le_rfl, h⟩, fun _ hj => hj.2.1⟩

theorem Enters.isLeast_of_not_started (h : p.Enters (i + 1)) (hno : ¬ p.Started i) :
    IsLeast (p.entries (i + 1)) (i + 1) := by
  refine ⟨h.isGreatest.1, fun j hj => ?_⟩
  rcases (mem_entries_succ (by simp [h.2.1])).1 hj with hj | ⟨rfl, -⟩
  · exact absurd ⟨j, hj⟩ hno
  · exact le_rfl

theorem exists_isLeast {s : Set Nat} (h : s.Nonempty) : ∃ i, IsLeast s i :=
  ⟨_, WellFounded.min_mem Nat.lt_wfRel.wf _ h, fun _ hj =>
    WellFounded.min_le Nat.lt_wfRel.wf hj⟩

/-! ## The blind of a cycle, report by report -/

theorem not_started_zero : ¬ p.Started 0 := by simp [Started, entries_zero]

theorem not_started_of_blindSelect (h : p i = some .blindSelect) : ¬ p.Started i := by
  simp [Started, entries_of_blindSelect h]

theorem started_succ (h : p (i + 1) ≠ some .blindSelect) :
    p.Started (i + 1) ↔ p.Started i ∨ p.Enters (i + 1) := by
  simp only [Started, Set.Nonempty, mem_entries_succ h]
  constructor
  · rintro ⟨j, hj | ⟨-, henters⟩⟩
    · exact Or.inl ⟨j, hj⟩
    · exact Or.inr henters
  · rintro (⟨j, hj⟩ | henters)
    · exact ⟨j, Or.inl hj⟩
    · exact ⟨i + 1, Or.inr ⟨rfl, henters⟩⟩

theorem Finished.started (h : p.Finished i) : p.Started i := by
  obtain ⟨j, hj, -⟩ := h
  exact ⟨j, hj.1⟩

theorem not_finished_zero : ¬ p.Finished 0 := fun h => not_started_zero h.started

theorem not_finished_of_blindSelect (h : p i = some .blindSelect) : ¬ p.Finished i :=
  fun hf => not_started_of_blindSelect h hf.started

/-- The first entry of a cycle stays the first. -/
theorem isLeast_entries_succ (h : p (i + 1) ≠ some .blindSelect) (hj : j ≤ i) :
    IsLeast (p.entries (i + 1)) j ↔ IsLeast (p.entries i) j := by
  constructor
  · rintro ⟨hmem, hleast⟩
    rcases (mem_entries_succ h).1 hmem with hmem | ⟨rfl, -⟩
    · exact ⟨hmem, fun k hk => hleast ((mem_entries_succ h).2 (Or.inl hk))⟩
    · omega
  · rintro ⟨hmem, hleast⟩
    refine ⟨(mem_entries_succ h).2 (Or.inl hmem), ?_⟩
    intro k hk
    rcases (mem_entries_succ h).1 hk with hk | ⟨rfl, -⟩
    · exact hleast hk
    · omega

theorem finished_succ (h : p (i + 1) ≠ some .blindSelect) :
    p.Finished (i + 1) ↔ p.Finished i ∨ p.Started i ∧ p (i + 1) = some .roundEnd := by
  constructor
  · rintro ⟨j, hj, k, hjk, hk, hend⟩
    have hji : IsLeast (p.entries i) j := (isLeast_entries_succ h (by omega)).1 hj
    rcases Nat.lt_or_ge i k with hik | hki
    · obtain rfl : k = i + 1 := by omega
      exact Or.inr ⟨⟨j, hji.1⟩, hend⟩
    · exact Or.inl ⟨j, hji, k, hjk, hki, hend⟩
  · rintro (⟨j, hj, k, hjk, hk, hend⟩ | ⟨hstarted, hend⟩)
    · exact ⟨j, (isLeast_entries_succ h (by omega)).2 hj, k, hjk, by omega, hend⟩
    · obtain ⟨j, hj⟩ := exists_isLeast hstarted
      have hji : j ≤ i := hj.1.2.1
      exact ⟨j, (isLeast_entries_succ h hji).2 hj, i + 1, by omega, le_rfl, hend⟩

/-! ## Refreshings -/

theorem refreshes_succ : p.Refreshes (i + 1) ↔
    p.Started i ∧
      (p (i + 1) = some .roundEnd ∨ p (i + 1) = some .playing ∧ p i = some .playing) := by
  rw [Refreshes, Nat.add_sub_cancel]
  refine and_congr_left fun hphase => ?_
  have hno : p (i + 1) ≠ some .blindSelect := by
    rcases hphase with hphase | ⟨hphase, -⟩ <;> simp [hphase]
  have hgoes : ¬ p.Enters (i + 1) := by
    rintro ⟨-, hplay, hprev⟩
    rcases hphase with hphase | ⟨-, hphase⟩
    · simp [hplay] at hphase
    · exact hprev hphase
  simp [started_succ hno, hgoes]

theorem Refreshes.isGreatest (h : p.Refreshes i) : IsGreatest (p.refreshings i) i :=
  ⟨⟨le_rfl, h⟩, fun _ hj => hj.1⟩

theorem refreshings_zero : p.refreshings 0 = ∅ := by
  ext j
  simp only [refreshings, Set.mem_ofPred_eq, Set.mem_empty_iff_false, iff_false]
  rintro ⟨hj, hstarted, -⟩
  obtain rfl : j = 0 := by omega
  exact not_started_zero hstarted

theorem mem_refreshings_succ :
    j ∈ p.refreshings (i + 1) ↔ j ∈ p.refreshings i ∨ j = i + 1 ∧ p.Refreshes (i + 1) := by
  simp only [refreshings, Set.mem_ofPred_eq]
  constructor
  · rintro ⟨hj, hr⟩
    rcases Nat.lt_or_ge i j with hij | hji
    · obtain rfl : j = i + 1 := by omega
      exact Or.inr ⟨rfl, hr⟩
    · exact Or.inl ⟨hji, hr⟩
  · rintro (⟨hj, hr⟩ | ⟨rfl, hr⟩)
    · exact ⟨by omega, hr⟩
    · exact ⟨le_rfl, hr⟩

theorem refreshings_succ_of_not (h : ¬ p.Refreshes (i + 1)) :
    p.refreshings (i + 1) = p.refreshings i := by
  ext j
  simp [mem_refreshings_succ, h]

/-! ## The round end that closes a blind -/

theorem mem_entries_of_opening_eq (h : p.Enters j) (hj : j ≤ i) (hc : p.opening j = p.opening i) :
    j ∈ p.entries i :=
  ⟨hc ▸ h.opening_lt, hj, h⟩

/-- The first round end after an entry of its cycle finds the blind started and not finished. -/
theorem isLeast_closings_iff :
    IsLeast (p.closings (p.opening (i + 1))) (i + 1) ↔
      p (i + 1) = some .roundEnd ∧ p.Started i ∧ ¬ p.Finished i := by
  constructor
  · rintro ⟨⟨-, hend, j, hj, hcycle, henters⟩, hleast⟩
    have hopening : p.opening (i + 1) = p.opening i := opening_succ (by simp [hend])
    refine ⟨hend, ⟨j, mem_entries_of_opening_eq henters (by omega) (by rw [hcycle, hopening])⟩, ?_⟩
    rintro ⟨j₀, ⟨hmem, -⟩, k, hjk, hk, hround⟩
    have hk' : p.opening k = p.opening i :=
      opening_eq_of_opening_lt (hmem.1.trans hjk) hk
    have hj' : p.opening j₀ = p.opening i := opening_eq_of_opening_lt hmem.1 hmem.2.1
    have := hleast ⟨by rw [hk', hopening], hround, j₀, hjk, by rw [hj', hopening], hmem.2.2⟩
    omega
  · rintro ⟨hend, ⟨j, hj⟩, hnot⟩
    have hopening : p.opening (i + 1) = p.opening i := opening_succ (by simp [hend])
    have hj' : p.opening j = p.opening i := opening_eq_of_opening_lt hj.1 hj.2.1
    have hji : j ≤ i := hj.2.1
    refine ⟨⟨rfl, hend, j, by omega, by rw [hj', hopening], hj.2.2⟩, ?_⟩
    rintro k ⟨hk, hround, j', hjk, hcycle, henters⟩
    by_contra hlt
    obtain ⟨j₀, hleast⟩ := exists_isLeast ⟨j, hj⟩
    have hle : j₀ ≤ j' :=
      hleast.2 (mem_entries_of_opening_eq henters (by omega) (by rw [hcycle, hopening]))
    exact hnot ⟨j₀, hleast, k, by omega, by omega, hround⟩

end History
end BlindArena
