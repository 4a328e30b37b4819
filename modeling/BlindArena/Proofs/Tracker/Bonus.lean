import BlindArena.Proofs.Tracker.Turns

/-!
# The completion bonus

Between turns the bonus of a cycle has been paid exactly when its blind is finished. A turn
therefore pays exactly when it is the first round end after an entry of its cycle, which happens at
most once before the next selection of a blind.
-/

namespace BlindArena

/-- Turn `i` of a run has a bonus among its shares; turns are counted from 1. -/
def Pays (ms : List Move) (i : Nat) : Prop :=
  ∃ k m, i = k + 1 ∧ ms[k]? = some m ∧ m.turn.shaped.bonus ≠ 0

/-- Moves have the phases of a history, from report 1. -/
def FollowsHistory (p : History) (ms : List Move) : Prop :=
  ∀ k m, ms[k]? = some m → p (k + 1) = m.cue.report.phase

theorem followsHistory_ofReports (first : Report) (ms : List Move) :
    FollowsHistory (.ofReports (first :: ms.map (·.cue.report))) ms := by
  intro k m hm
  simp [History.ofReports, hm]

theorem FollowsHistory.of_concat {p : History} {past : List Move} {m : Move}
    (h : FollowsHistory p (past ++ [m])) :
    FollowsHistory p past ∧ p (past.length + 1) = m.cue.report.phase := by
  constructor
  · intro k n hn
    have hk : k < past.length := (List.getElem?_eq_some_iff.1 hn).1
    exact h k n (by rw [List.getElem?_append_left hk, hn])
  · exact h past.length m (by simp)

theorem FollowsHistory.take {p : History} {ms : List Move} (h : FollowsHistory p ms) (k : Nat) :
    FollowsHistory p (ms.take k) := by
  intro j m hm
  rw [List.getElem?_take] at hm
  split at hm
  · exact h j m hm
  · cases hm

theorem bonus_ofGains_ne_zero_iff (gains : Snapshot) (due : Bool) (remap : Float32) :
    (Breakdown.ofGains gains due remap).bonus ≠ 0 ↔ due = true := by
  have hne : Reward.blindBonus ≠ 0 := by decide
  cases due
  · simp [Breakdown.ofGains]
  · simp [Breakdown.ofGains, hne]

namespace Tracker
variable {p : History} {i : Nat} {t t' : Tracker} {read : Option Snapshot} {phase : Option Phase}

theorem Followed.paid_eq (h : Followed t read phase t') :
    t'.paid = (t.paid && phase ≠ some .blindSelect) := by
  cases h with
  | opens => simp [openCycle]
  | enters hprev => simp [startBlind]
  | goesOn hprev hstarted hr => rw [hr.eq_with]; simp
  | finishes hstarted hr => rw [hr.eq_with]; simp
  | idles hselect hplay hend => simp [hselect]

/-- The tracker between turns, after report `i` of a history. -/
structure Latched (p : History) (i : Nat) (t : Tracker) : Prop extends Lifecycle p i t where
  paid : t.paid = t.finished

theorem Latched.begin {first : Report} (h : p 0 = first.phase) : Latched p 0 (begin first) :=
  { Lifecycle.begin h with paid := rfl }

/-- The bonus is owed once a report is seen that ends the round of a blind not finished before. -/
theorem Latched.bonusDue_iff {report : Report} {seen : Tracker} (h : Latched p i t)
    (hphase : p (i + 1) = report.phase) (hseen : t.tick.observe report read = .ok seen) :
    seen.bonusDue report.phase = true ↔
      p (i + 1) = some .roundEnd ∧ p.Started i ∧ ¬ p.Finished i := by
  have hl := h.toLifecycle.tick.observe hphase hseen
  obtain ⟨followed, hf, rfl⟩ := followed_of_observe hseen
  have hpaid : followed.paid = (t.paid && report.phase ≠ some .blindSelect) := hf.paid_eq
  change (report.phase = some .roundEnd && (followed.arrive report).started &&
    (followed.arrive report).finished && !followed.paid) = true ↔ _
  rw [hpaid, ← hphase]
  simp only [Bool.and_eq_true, decide_eq_true_eq, hl.started, hl.finished, and_assoc,
    and_congr_right_iff]
  intro hend
  have hno : p (i + 1) ≠ some .blindSelect := by simp [hend]
  simp only [History.started_succ hno, History.finished_succ hno, hend, h.paid, ← h.finished,
    ← h.started]
  cases t.finished with
  | true => simp
  | false =>
    simp only [Bool.false_eq_true, false_or, not_false_eq_true, and_true]
    simpa using Or.inl

theorem Latched.play {cue : Cue} {turn : Turn} (h : Latched p i t)
    (hphase : p (i + 1) = cue.report.phase) (hplay : cue.play t = .ok turn) :
    Latched p (i + 1) turn.tracker := by
  obtain ⟨seen, gains, hseen, -, -, htracker⟩ := Cue.play_ok_elim hplay
  have hl := h.toLifecycle.tick.observe hphase hseen
  have hdue := h.bonusDue_iff hphase hseen
  rw [htracker]
  refine { hl.settle _ with paid := ?_ }
  change (seen.paid || seen.bonusDue cue.report.phase) = seen.finished
  obtain ⟨followed, hf, rfl⟩ := followed_of_observe hseen
  have hpaid : (followed.arrive cue.report).paid =
    (t.paid && cue.report.phase ≠ some .blindSelect) := hf.paid_eq
  rw [Bool.eq_iff_iff, Bool.or_eq_true, hdue, hl.finished, hpaid, ← hphase, h.paid]
  by_cases hselect : p (i + 1) = some .blindSelect
  · simp [hselect, History.not_finished_of_blindSelect hselect]
  · rw [History.finished_succ hselect]
    simp only [hselect, Bool.and_eq_true, decide_not, decide_false, Bool.not_false, and_true,
      h.finished]
    tauto

variable {first : Report} {cues : List Cue} {ms : List Move}

theorem latched_of_moves (hrun : (begin first).moves cues = .ok ms) (h0 : p 0 = first.phase)
    (hp : FollowsHistory p ms) {k : Nat} {m : Move} (hm : ms[k]? = some m) :
    Latched p k m.before ∧ m.cue.play m.before = .ok m.turn := by
  have hk : k < ms.length := (List.getElem?_eq_some_iff.1 hm).1
  obtain ⟨hbefore, hplay⟩ := invariant_of_moves
    (P := fun past t => FollowsHistory p past → Latched p past.length t)
    (fun past t cue turn h hplay hfits => by
      obtain ⟨hpast, hphase⟩ := hfits.of_concat
      simpa using (h hpast).play hphase hplay)
    [] (fun _ => Latched.begin h0) hrun hm
  have hlatched := hbefore (hp.take k)
  rw [List.nil_append, List.length_take, Nat.min_eq_left hk.le] at hlatched
  exact ⟨hlatched, hplay⟩

/-- A turn pays exactly when it is the first round end after an entry of its cycle. -/
theorem pays_iff_isLeast_closings (hrun : (begin first).moves cues = .ok ms) {i : Nat} :
    let p := History.ofReports (first :: ms.map (·.cue.report))
    Pays ms i ↔ IsLeast (p.closings (p.opening i)) i := by
  intro p
  have hfits : FollowsHistory p ms := followsHistory_ofReports first ms
  cases i with
  | zero =>
    constructor
    · rintro ⟨k, m, hk, -⟩
      omega
    · rintro ⟨⟨-, -, j, hj, -⟩, -⟩
      omega
  | succ k =>
    cases hm : ms[k]? with
    | none =>
      have hnone : p (k + 1) = none := by simp [p, History.ofReports, hm]
      constructor
      · rintro ⟨j, m, hj, hsome, -⟩
        obtain rfl : k = j := by omega
        simp [hm] at hsome
      · rintro ⟨⟨-, hend, -⟩, -⟩
        simp [hnone] at hend
    | some m =>
      obtain ⟨hlatched, hplay⟩ := latched_of_moves hrun rfl hfits hm
      obtain ⟨seen, gains, hseen, -, hshaped, -⟩ := Cue.play_ok_elim hplay
      have hdue := hlatched.bonusDue_iff (hfits k m hm) hseen
      rw [History.isLeast_closings_iff, ← hdue, ← bonus_ofGains_ne_zero_iff gains _ m.cue.penalty,
        ← hshaped]
      constructor
      · rintro ⟨j, n, hj, hn, hbonus⟩
        obtain rfl : k = j := by omega
        rw [hm] at hn
        cases hn
        exact hbonus
      · intro hbonus
        exact ⟨k, m, rfl, hm, hbonus⟩

theorem latched_after_moves (hrun : (begin first).moves cues = .ok ms) {t : Tracker}
    (ht : t ∈ begin first :: ms.map (·.turn.tracker)) :
    ∃ i, Latched (.ofReports (first :: ms.map (·.cue.report))) i t := by
  have hfits := followsHistory_ofReports first ms
  rcases List.mem_cons.1 ht with rfl | ht
  · exact ⟨0, Latched.begin rfl⟩
  · obtain ⟨m, hmem, rfl⟩ := List.mem_map.1 ht
    obtain ⟨k, hm⟩ := List.mem_iff_getElem?.1 hmem
    obtain ⟨hlatched, hplay⟩ := latched_of_moves hrun rfl hfits hm
    exact ⟨k + 1, hlatched.play (hfits k m hm) hplay⟩

/-- Whatever phases, figures, penalties and budgets the turns of a run have, and past any ending. -/
theorem bonus_once_per_cycle (hrun : (begin first).moves cues = .ok ms) :
    let p := History.ofReports (first :: ms.map (·.cue.report))
    (∀ a i i', a ≤ i → a ≤ i' → (∀ k, a < k → k ≤ max i i' → p k ≠ some .blindSelect) →
      Pays ms i → Pays ms i' → i = i') ∧
    (∀ c, (∃ i, p.opening i = c ∧ Pays ms i) ↔
      ∃ j i, p.opening j = c ∧ p.Enters j ∧ j < i ∧ p.opening i = c ∧ p i = some .roundEnd) ∧
    (∀ c i, p.opening i = c ∧ Pays ms i ↔
      IsLeast {i | p.opening i = c ∧ p i = some .roundEnd ∧
        ∃ j < i, p.opening j = c ∧ p.Enters j} i) ∧
    ∀ t ∈ begin first :: ms.map (·.turn.tracker),
      (t.paid = true → t.finished = true) ∧ (t.finished = true → t.started = true) := by
  intro p
  have hpays (c i : Nat) : p.opening i = c ∧ Pays ms i ↔ IsLeast (p.closings c) i := by
    constructor
    · rintro ⟨rfl, hpay⟩
      exact (pays_iff_isLeast_closings hrun).1 hpay
    · intro hleast
      obtain rfl : p.opening i = c := hleast.1.1
      exact ⟨rfl, (pays_iff_isLeast_closings hrun).2 hleast⟩
  refine ⟨?_, ?_, hpays, ?_⟩
  · intro a i i' hi hi' hno hpay hpay'
    have hcycle : p.opening i = p.opening a :=
      History.opening_eq_of_le hi fun k hak hk => hno k hak (by omega)
    have hcycle' : p.opening i' = p.opening a :=
      History.opening_eq_of_le hi' fun k hak hk => hno k hak (by omega)
    exact ((hpays _ i).1 ⟨hcycle, hpay⟩).unique ((hpays _ i').1 ⟨hcycle', hpay'⟩)
  · intro c
    constructor
    · rintro ⟨i, hi⟩
      obtain ⟨hcycle, hend, j, hji, hj, henters⟩ := ((hpays c i).1 hi).1
      exact ⟨j, i, hj, henters, hji, hcycle, hend⟩
    · rintro ⟨j, i, hj, henters, hji, hcycle, hend⟩
      obtain ⟨first, hfirst⟩ := History.exists_isLeast (s := p.closings c)
        ⟨i, hcycle, hend, j, hji, hj, henters⟩
      exact ⟨first, (hpays c first).2 hfirst⟩
  · intro t ht
    obtain ⟨i, hlatched⟩ := latched_after_moves hrun ht
    refine ⟨fun hpaid => hlatched.paid ▸ hpaid, fun hfinished => ?_⟩
    exact hlatched.started.2 (hlatched.finished.1 hfinished).started

/-- A round end that is seen again, after more play, is not paid again; the next blind is. -/
theorem bonus_once_per_cycle_of_two_blinds :
    let cue (phase : Phase) (score : Int) : Cue := ⟨.input phase [], some ⟨score, 4⟩, 0, 2⟩
    let cues := [cue .playing 10, cue .roundEnd 30, cue .playing 30, cue .roundEnd 35,
      cue .blindSelect 35, cue .playing 35, cue .roundEnd 80]
    ∃ ms, (begin (.input .blindSelect [])).moves cues = .ok ms ∧
      Pays ms 2 ∧ ¬ Pays ms 4 ∧ Pays ms 7 := by
  intro cue cues
  obtain ⟨ms, hrun, hreports, h2, h7⟩ :
      ∃ ms, (begin (.input .blindSelect [])).moves cues = .ok ms ∧
        ms.map (·.cue.report) = cues.map (·.report) ∧ Pays ms 2 ∧ Pays ms 7 :=
    ⟨_, rfl, rfl, ⟨1, _, rfl, rfl, by decide⟩, ⟨6, _, rfl, rfl, by decide⟩⟩
  refine ⟨ms, hrun, h2, ?_, h7⟩
  intro h4
  have heq := (bonus_once_per_cycle hrun).1 1 2 4 (by omega) (by omega) ?_ h2 h4
  · omega
  · intro k hlow hhigh
    rw [hreports]
    obtain rfl | rfl | rfl : k = 2 ∨ k = 3 ∨ k = 4 := by omega
    all_goals decide

end Tracker
end BlindArena
