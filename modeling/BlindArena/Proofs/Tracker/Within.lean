import BlindArena.Proofs.Tracker.Follow

/-!
# Figures within bounds

When the engine answers every read, and with figures between zero and some bound, the tracker counts
from baselines that were read. Differences then stay within the bound on either side, no difference
of these overflows, and every turn succeeds.
-/

namespace BlindArena

/-- Figures between zero and a bound, as they are read. -/
structure Snapshot.UpTo (most : Int) (s : Snapshot) : Prop where
  score : 0 ≤ s.score ∧ s.score ≤ most
  money : 0 ≤ s.money ∧ s.money ≤ most

/-- Figures within a bound on either side, as they are counted. -/
structure Snapshot.Within (most : Int) (s : Snapshot) : Prop where
  score : -most ≤ s.score ∧ s.score ≤ most
  money : -most ≤ s.money ∧ s.money ≤ most

/-- Amounts between two bounds differ by no more than the bounds do. -/
theorem Amount.fits_sub_of_range {low high a b : Int} (hfits : Fits (high - low))
    (ha : low ≤ a ∧ a ≤ high) (hb : low ≤ b ∧ b ≤ high) :
    Fits (a - b) ∧ -(high - low) ≤ a - b ∧ a - b ≤ high - low := by
  simp only [Fits] at hfits ⊢
  omega

namespace Snapshot
variable {most : Int} {a b : Snapshot}

theorem sub_of_upTo (hmost : Amount.Fits most) (ha : a.UpTo most) (hb : b.UpTo most) :
    ∃ d, a.sub b = .ok d ∧ d.Within most := by
  rw [← Int.sub_zero most] at hmost
  obtain ⟨hscore, hlow, hhigh⟩ := Amount.fits_sub_of_range hmost ha.score hb.score
  obtain ⟨hmoney, hlow', hhigh'⟩ := Amount.fits_sub_of_range hmost ha.money hb.money
  rw [Int.sub_zero] at hlow hhigh hlow' hhigh'
  exact ⟨_, sub_of_fits ⟨hscore, hmoney⟩, ⟨hlow, hhigh⟩, ⟨hlow', hhigh'⟩⟩

theorem sub_of_within (hmost : Amount.Fits (2 * most)) (ha : a.Within most) (hb : b.Within most) :
    ∃ d, a.sub b = .ok d ∧ d.Within (2 * most) := by
  have htwice : most - -most = 2 * most := by omega
  rw [← htwice] at hmost ⊢
  obtain ⟨hscore, hrange⟩ := Amount.fits_sub_of_range hmost ha.score hb.score
  obtain ⟨hmoney, hrange'⟩ := Amount.fits_sub_of_range hmost ha.money hb.money
  exact ⟨_, sub_of_fits ⟨hscore, hmoney⟩, hrange, hrange'⟩

end Snapshot

namespace Tracker

structure Within (most : Int) (t : Tracker) : Prop where
  baseline : ∀ baseline, t.baseline = some baseline → baseline.figures.UpTo most
  current : t.current.Within most
  previous : t.previous.Within most

variable {most : Int} {t : Tracker} {report : Report} {phase : Option Phase}
  {read : Option Snapshot}

theorem within_default (hmost : 0 ≤ most) : Within most {} := by
  have hzero : Snapshot.Within most {} := by constructor <;> dsimp only <;> omega
  exact ⟨by simp, hzero, hzero⟩

theorem within_begin (hmost : 0 ≤ most) (report : Report) : (begin report).Within most :=
  let h := within_default hmost
  ⟨h.baseline, h.current, h.previous⟩

/-- The figures that are wanted are at hand. -/
def Informed (most : Int) (t : Tracker) (phase : Option Phase) (read : Option Snapshot) : Prop :=
  t.wantsRead phase = true → ∃ figures, read = some figures ∧ figures.UpTo most

theorem Informed.of_refreshes (h : t.Informed most phase read) (hr : t.refreshes phase = true) :
    ∃ figures, read = some figures ∧ figures.UpTo most :=
  h (by rw [wantsRead_eq, hr, Bool.or_true])

theorem Informed.of_enters (h : t.Informed most phase read) (he : t.enters phase = true) :
    ∃ figures, read = some figures ∧ figures.UpTo most :=
  h (by rw [wantsRead_eq, he, Bool.true_or])

/-- What is counted stays within bounds. -/
theorem Within.exists_count (hmost : Amount.Fits (2 * most)) (h : t.Within most)
    (hread : t.Informed most phase read) {absolute : Snapshot} {baseline : Baseline}
    (hr : t.refreshes phase = true) (habsolute : read = some absolute)
    (hbaseline : t.baseline = some baseline) :
    ∃ current, absolute.sub baseline.figures = .ok current ∧ current.Within most := by
  obtain ⟨figures, hfigures, hupTo⟩ := hread.of_refreshes hr
  obtain rfl : figures = absolute := Option.some.inj (hfigures.symm.trans habsolute)
  have hfits : Amount.Fits most := by
    simp only [Amount.Fits] at hmost ⊢
    omega
  exact Snapshot.sub_of_upTo hfits hupTo (h.baseline baseline hbaseline)

theorem Within.follow {t' : Tracker} (hmost : Amount.Fits (2 * most)) (h : t.Within most)
    (hread : t.Informed most phase read) (hf : Followed t read phase t') : t'.Within most where
  baseline := by
    refine hf.baseline_elim (P := fun b => b.figures.UpTo most) h.baseline fun henters => ?_
    obtain ⟨figures, rfl, hfigures⟩ := hread.of_enters henters
    exact hfigures
  current := by
    refine hf.current_elim (P := fun s => s.Within most) h.current ?_
    intro absolute baseline current hr habsolute hbaseline hcurrent
    obtain ⟨counted, hcounted, hwithin⟩ := h.exists_count hmost hread hr habsolute hbaseline
    obtain rfl : counted = current := Except.ok.inj (hcounted.symm.trans hcurrent)
    exact hwithin
  previous := hf.previous_eq ▸ h.previous

/-- A turn that is given what it wants succeeds and stays within bounds. -/
theorem Within.turn (hmost : Amount.Fits (2 * most)) (h : t.Within most)
    (hread : t.Informed most report.phase read) (penalty : Float32) (budget : Nat) :
    ∃ turn, t.turn report read penalty budget = .ok turn ∧ turn.tracker.Within most := by
  have hticked : t.tick.Within most := ⟨h.baseline, h.current, h.previous⟩
  obtain ⟨turn, hturn⟩ := exists_turn
    (fun absolute baseline hr habsolute hbaseline =>
      (h.exists_count hmost hread hr habsolute hbaseline).imp fun _ => And.left)
    (fun t' hf => by
      have hwithin := hticked.follow hmost hread hf
      exact (Snapshot.sub_of_within hmost hwithin.current hwithin.previous).imp fun _ => And.left)
    penalty budget
  refine ⟨turn, hturn, ?_⟩
  obtain ⟨seen, shaped, hseen, -, rfl⟩ := turn_eq_ok_iff.1 hturn
  obtain ⟨followed, hf, rfl⟩ := followed_of_observe hseen
  have hwithin := hticked.follow hmost hread hf
  exact ⟨hwithin.baseline, hwithin.current, hwithin.current⟩

end Tracker
end BlindArena
