import BlindArena.Turn

/-!
# What the tracker's operations leave alone

Observing and settling do not count steps; a turn counts one, and one that does not end the episode
leaves the count below the budget. After a turn the indices held are those of its report.
-/

namespace BlindArena
namespace Tracker

@[simp] theorem steps_arrive (t : Tracker) (report : Report) : (t.arrive report).steps = t.steps :=
  rfl

@[simp] theorem steps_settle (t : Tracker) (bonus : Bool) : (t.settle bonus).steps = t.steps := rfl

@[simp] theorem legal_settle (t : Tracker) (bonus : Bool) : (t.settle bonus).legal = t.legal := rfl

@[simp] theorem steps_tick (t : Tracker) : t.tick.steps = t.steps + 1 := rfl

@[simp] theorem steps_begin (report : Report) : (begin report).steps = 0 := rfl

theorem steps_of_refresh {t t' : Tracker} {read : Option Snapshot}
    (h : t.refresh read = .ok t') : t'.steps = t.steps := by
  unfold refresh at h
  split at h
  · rename_i absolute baseline _
    cases hs : absolute.sub baseline.figures <;> simp [hs, Except.map] at h
    subst h
    rfl
  · cases h
    rfl

theorem steps_of_follow {t t' : Tracker} {phase : Option Phase} {read : Option Snapshot}
    (h : t.follow phase read = .ok t') : t'.steps = t.steps := by
  unfold follow at h
  split at h
  · cases h; rfl
  · split at h
    · cases h; rfl
    · split at h
      · exact steps_of_refresh h
      · cases h; rfl
  · split at h
    · exact steps_of_refresh (t := { t with finished := true }) h
    · cases h; rfl
  · cases h; rfl

theorem steps_of_observe {t t' : Tracker} {report : Report} {read : Option Snapshot}
    (h : t.observe report read = .ok t') : t'.steps = t.steps := by
  unfold observe at h
  cases hf : t.follow report.phase read with
  | error o => simp [hf, Except.map] at h
  | ok followed =>
    simp only [hf, Except.map, Except.ok.injEq] at h
    subst h
    simpa using steps_of_follow hf

/-- A turn in its parts. -/
theorem turn_eq_ok_iff {t : Tracker} {report : Report} {read : Option Snapshot} {penalty : Float32}
    {budget : Nat} {turn : Turn} :
    t.turn report read penalty budget = .ok turn ↔
      ∃ seen shaped, t.tick.observe report read = .ok seen ∧
        Breakdown.shape seen report.phase penalty = .ok shaped ∧
        turn = ⟨seen.settle shaped.paid, shaped,
          Ending.decide report (seen.settle shaped.paid) budget⟩ := by
  cases hs : t.tick.observe report read with
  | error o => simp [Tracker.turn, hs, bind, Except.bind]
  | ok seen =>
    cases hb : Breakdown.shape seen report.phase penalty with
    | error o => simp [Tracker.turn, hs, hb, bind, Except.bind]
    | ok shaped => simp [Tracker.turn, hs, hb, bind, Except.bind, pure, Except.pure, eq_comm]

theorem legal_of_observe {t t' : Tracker} {report : Report} {read : Option Snapshot}
    (h : t.observe report read = .ok t') : t'.legal = report.legal := by
  unfold observe at h
  cases hf : t.follow report.phase read with
  | error o => simp [hf, Except.map] at h
  | ok followed =>
    simp only [hf, Except.map, Except.ok.injEq] at h
    subst h
    rfl

theorem legal_of_turn {t : Tracker} {report : Report} {read : Option Snapshot} {penalty : Float32}
    {budget : Nat} {turn : Turn} (h : t.turn report read penalty budget = .ok turn) :
    turn.tracker.legal = report.legal := by
  obtain ⟨seen, shaped, hs, -, rfl⟩ := turn_eq_ok_iff.1 h
  simpa using legal_of_observe hs

theorem steps_of_turn {t : Tracker} {report : Report} {read : Option Snapshot} {penalty : Float32}
    {budget : Nat} {turn : Turn} (h : t.turn report read penalty budget = .ok turn) :
    turn.tracker.steps = t.steps + 1 := by
  obtain ⟨seen, shaped, hs, -, rfl⟩ := turn_eq_ok_iff.1 h
  simpa using steps_of_observe hs

theorem steps_lt_of_turn {t : Tracker} {report : Report} {read : Option Snapshot}
    {penalty : Float32} {budget : Nat} {turn : Turn}
    (h : t.turn report read penalty budget = .ok turn) (he : turn.ending = none) :
    t.steps + 1 < budget := by
  rw [← steps_of_turn h]
  obtain ⟨seen, shaped, -, -, rfl⟩ := turn_eq_ok_iff.1 h
  show (seen.settle shaped.paid).steps < budget
  simp only [Ending.decide] at he
  split at he
  · simp at he
  · split at he
    · simp at he
    · split at he
      · simp at he
      · omega

end Tracker

/-- The shares of a step are those of its gains. -/
theorem Breakdown.shape_ok_elim {t : Tracker} {phase : Option Phase} {penalty : Float32}
    {shaped : Breakdown} (h : shape t phase penalty = .ok shaped) :
    ∃ gains, shaped = ofGains gains (t.bonusDue phase) penalty := by
  cases hgains : t.gains with
  | error overflow => simp [shape, hgains, bind, Except.bind] at h
  | ok gains =>
    simp only [shape, hgains, bind, Except.bind, pure, Except.pure, Except.ok.injEq] at h
    exact ⟨gains, h.symm⟩

end BlindArena
