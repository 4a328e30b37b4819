import BlindArena.Enumeration
import BlindArena.Tracker.Basic

/-!
# Endings

Why an episode ends: the engine reports the run finished, the blind that was started reaches its
round end, or the budget of steps runs out, in this order of precedence.
-/

namespace BlindArena

inductive Ending where
  | finished | blind | budget
  deriving DecidableEq

namespace Ending

def name : Ending → String
  | finished => "Finished"
  | blind => "Blind"
  | budget => "Budget"

instance : Enumeration Ending where
  all := [finished, blind, budget]
  name := name
  mem_all a := by cases a <;> simp
  nodup_names := by simp [name]

def decide (report : Report) (t : Tracker) (budget : Nat) : Option Ending :=
  if report.status = .finished then some .finished
  else if report.phase = some .roundEnd ∧ t.started then some .blind
  else if budget ≤ t.steps then some .budget
  else none

section decide
variable {report : Report} {t : Tracker} {budget : Nat}

theorem decide_eq_finished_iff :
    decide report t budget = some .finished ↔ report.status = .finished := by
  unfold decide
  by_cases hstatus : report.status = .finished
  · simp [hstatus]
  · by_cases hend : report.phase = some .roundEnd ∧ t.started = true
    · simp [hstatus, hend]
    · by_cases hbudget : budget ≤ t.steps <;> simp [hstatus, hend, hbudget]

theorem decide_eq_blind_iff :
    decide report t budget = some .blind ↔
      report.status ≠ .finished ∧ report.phase = some .roundEnd ∧ t.started = true := by
  unfold decide
  by_cases hstatus : report.status = .finished
  · simp [hstatus]
  · by_cases hend : report.phase = some .roundEnd ∧ t.started = true
    · simp [hstatus, hend]
    · by_cases hbudget : budget ≤ t.steps <;> simp [hstatus, hend, hbudget]

theorem status_of_decide_none (h : decide report t budget = none) :
    report.status ≠ .finished := by
  intro hstatus
  simp [decide, hstatus] at h

end decide

end Ending

end BlindArena
