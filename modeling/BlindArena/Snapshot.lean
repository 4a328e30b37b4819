import BlindArena.Amount

/-!
# Snapshots

A score and a sum of money: absolute, as the engine sees them, or relative to an earlier snapshot.
-/

namespace BlindArena

structure Snapshot where
  score : Int := 0
  money : Int := 0
  deriving DecidableEq

namespace Snapshot

/-- The score is subtracted first, so its overflow comes first. -/
def sub (a b : Snapshot) : Except Overflow Snapshot := do
  let score ← Amount.sub a.score b.score
  let money ← Amount.sub a.money b.money
  pure ⟨score, money⟩

def Fits (s : Snapshot) : Prop := Amount.Fits s.score ∧ Amount.Fits s.money

theorem sub_eq_ok_iff {a b d : Snapshot} :
    a.sub b = .ok d ↔ Amount.sub a.score b.score = .ok d.score ∧
      Amount.sub a.money b.money = .ok d.money := by
  obtain ⟨score, money⟩ := d
  cases hs : Amount.sub a.score b.score <;> cases hm : Amount.sub a.money b.money <;>
    simp [sub, hs, hm, bind, Except.bind, pure, Except.pure]

theorem sub_of_fits {a b : Snapshot} (h : Fits ⟨a.score - b.score, a.money - b.money⟩) :
    a.sub b = .ok ⟨a.score - b.score, a.money - b.money⟩ :=
  sub_eq_ok_iff.2 ⟨Amount.sub_of_fits h.1, Amount.sub_of_fits h.2⟩

end Snapshot

end BlindArena
