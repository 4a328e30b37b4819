import BlindArena.Proofs.Tracker.Turns
import BlindArena.Proofs.Tracker.Within
import Mathlib.Tactic.IntervalCases

/-!
# A bounded engine

When the figures that are read stay within a bound on either side and the first entry of every cycle
is answered, each baseline is a read of its cycle, whichever later reads fail. What is counted from
it stays within twice the bound, even if it stems from an earlier blind, and moves by at most four
times the bound. So no difference overflows as long as four times the bound is an amount.
-/

namespace BlindArena
namespace Tracker

/-- What is read for report `i` of a history, if it is asked for, is within a bound, and the first
entry of a cycle is answered. -/
structure Answers (p : History) (most : Int) (i : Nat) (read : Option Snapshot) : Prop where
  within : p.Enters i ∨ p.Refreshes i → ∀ figures, read = some figures → figures.Within most
  first : IsLeast (p.entries i) i → read ≠ none

/-- The tracker after report `i`: its baseline was read, and its figures are differences of reads.
-/
structure Bounded (p : History) (most : Int) (i : Nat) (t : Tracker) : Prop
    extends Lifecycle p i t where
  captured : ∀ baseline, t.baseline = some baseline →
    baseline.tier = .engine ∧ baseline.figures.Within most
  current : t.current.Within (2 * most)
  settled : t.previous = t.current

namespace Bounded
variable {p : History} {most : Int} {i : Nat} {t t' : Tracker} {read : Option Snapshot}

theorem begin {first : Report} (hmost : 0 ≤ most) (h : p 0 = first.phase) :
    Bounded p most 0 (begin first) where
  toLifecycle := .begin h
  captured := by simp [Tracker.begin, arrive]
  current := (within_begin (by omega) first).current
  settled := rfl

theorem exists_count (hmost : Amount.Fits (4 * most)) (h : Bounded p most i t)
    (hread : Answers p most (i + 1) read) {absolute : Snapshot} {baseline : Baseline}
    (hr : t.refreshes (p (i + 1)) = true) (habsolute : read = some absolute)
    (hbaseline : t.baseline = some baseline) :
    ∃ current, absolute.sub baseline.figures = .ok current ∧ current.Within (2 * most) := by
  have hfits : Amount.Fits (2 * most) := by
    simp only [Amount.Fits] at hmost ⊢
    omega
  have hrefreshes : p.Refreshes (i + 1) := h.refreshes_eq_true_iff.1 hr
  exact Snapshot.sub_of_within hfits (hread.within (Or.inr hrefreshes) absolute habsolute)
    (h.captured baseline hbaseline).2

theorem captured_of_enters (h : Bounded p most i t) (hread : Answers p most (i + 1) read)
    (henters : p.Enters (i + 1)) :
    let baseline := Baseline.capture t.baseline read t.current
    baseline.tier = .engine ∧ baseline.figures.Within most := by
  cases read with
  | some figures => exact ⟨rfl, hread.within (Or.inl henters) figures rfl⟩
  | none =>
    have hstarted : p.Started i := by
      by_contra hno
      exact hread.first (henters.isLeast_of_not_started hno) rfl
    have hsome : t.baseline.isSome = true := by rw [h.baseline]; exact h.started.2 hstarted
    obtain ⟨⟨tier, figures⟩, hbaseline⟩ := Option.isSome_iff_exists.1 hsome
    obtain ⟨rfl, hwithin⟩ := h.captured _ hbaseline
    simpa [hbaseline] using hwithin

theorem follow (hmost : Amount.Fits (4 * most)) (h : Bounded p most i t)
    (hread : Answers p most (i + 1) read) (hf : Followed t read (p (i + 1)) t') :
    (∀ baseline, t'.baseline = some baseline →
      baseline.tier = .engine ∧ baseline.figures.Within most) ∧ t'.current.Within (2 * most) := by
  constructor
  · exact hf.baseline_elim h.captured fun henters =>
      h.captured_of_enters hread (h.enters_eq_true_iff.1 henters)
  · refine hf.current_elim h.current ?_
    intro absolute baseline current hr habsolute hbaseline hcurrent
    obtain ⟨counted, hcounted, hwithin⟩ := h.exists_count hmost hread hr habsolute hbaseline
    obtain rfl : counted = current := Except.ok.inj (hcounted.symm.trans hcurrent)
    exact hwithin

theorem play {cue : Cue} (hmost : Amount.Fits (4 * most)) (h : Bounded p most i t)
    (hphase : p (i + 1) = cue.report.phase) (hread : Answers p most (i + 1) cue.read) :
    ∃ turn, cue.play t = .ok turn ∧ Bounded p most (i + 1) turn.tracker := by
  have hticked : Bounded p most i t.tick := { h with toLifecycle := h.toLifecycle.tick }
  have hfits : Amount.Fits (2 * (2 * most)) := by
    rwa [← Int.mul_assoc]
  obtain ⟨turn, hplay⟩ : ∃ turn, cue.play t = .ok turn := by
    apply exists_turn
    · intro absolute baseline hr habsolute hbaseline
      rw [← hphase] at hr
      exact (h.exists_count hmost hread hr habsolute hbaseline).imp fun _ => And.left
    · intro t' hf
      rw [← hphase] at hf
      obtain ⟨-, hcurrent⟩ := hticked.follow hmost hread hf
      have hprevious : t'.previous = t.current := hf.previous_eq.trans h.settled
      rw [hprevious]
      exact (Snapshot.sub_of_within hfits hcurrent h.current).imp fun _ => And.left
  refine ⟨turn, hplay, ?_⟩
  obtain ⟨seen, gains, hseen, -, -, htracker⟩ := Cue.play_ok_elim hplay
  have hlifecycle := hticked.toLifecycle.observe hphase hseen
  obtain ⟨followed, hf, rfl⟩ := followed_of_observe hseen
  rw [← hphase] at hf
  obtain ⟨hcaptured, hcurrent⟩ := hticked.follow hmost hread hf
  rw [htracker]
  exact {
    toLifecycle := hlifecycle.settle _
    captured := hcaptured
    current := hcurrent
    settled := rfl }

end Bounded

/-- However long the run and whichever other reads fail, every turn succeeds. -/
theorem moves_of_bounded_reads {first : Report} {cues : List Cue} {most : Nat}
    (hmost : 4 * most ≤ 2 ^ 63 - 1) :
    let p := History.ofReports (first :: cues.map (·.report))
    (∀ j figures, p.Enters j ∨ p.Refreshes j → Cue.reads cues j = some figures →
      figures.Within most) →
    (∀ j, IsLeast (p.entries j) j → Cue.reads cues j ≠ none) →
    ∃ ms, (begin first).moves cues = .ok ms ∧
      ∀ m ∈ ms, m.turn.tracker.current.Within (2 * most) ∧
        m.turn.tracker.previous.Within (2 * most) := by
  intro p hwithin hfirst
  have hfits : Amount.Fits (4 * most) := by
    simp only [Amount.Fits]
    omega
  have hbegin : Bounded p most 0 (begin first) := .begin (by omega) rfl
  have hturn (k : Nat) (cue : Cue) (t : Tracker) (hcue : cues[k]? = some cue)
      (h : Bounded p most (0 + k) t) :
      ∃ turn, cue.play t = .ok turn ∧ Bounded p most (0 + k + 1) turn.tracker := by
    rw [Nat.zero_add] at h ⊢
    have hread := Cue.reads_of_cues hcue
    refine h.play hfits (Cue.phase_of_cues first hcue) ⟨?_, ?_⟩
    · intro hasked figures hfigures
      exact hwithin (k + 1) figures hasked (hread.trans hfigures)
    · intro hleast
      rw [← hread]
      exact hfirst (k + 1) hleast
  obtain ⟨ms, hrun, hkept⟩ := exists_moves hbegin hturn
  refine ⟨ms, hrun, fun m hm => ?_⟩
  obtain ⟨k, hbounded⟩ := hkept m hm
  exact ⟨hbounded.current, hbounded.settled ▸ hbounded.current⟩

/-- Figures move from one end to the other within a blind, and back in the next one, which counts
from what the first one left. -/
theorem moves_of_bounded_reads_of_swings :
    let most := 2 ^ 61 - 1
    let cue (phase : Phase) (read : Option Int) : Cue :=
      ⟨.input phase [], read.map fun figure => ⟨figure, -figure⟩, 0, 1000⟩
    let cues := [cue .playing (some most), cue .roundEnd (some (-most)), cue .blindSelect none,
      cue .playing (some (-most)), cue .shop none, cue .playing none, cue .playing (some most)]
    4 * (2 ^ 61 - 1) ≤ 2 ^ 63 - 1 ∧
    ∃ ms, (begin (.input .blindSelect [])).moves cues = .ok ms ∧
      ∀ m ∈ ms, m.turn.tracker.current.Within (2 * most) ∧
        m.turn.tracker.previous.Within (2 * most) := by
  intro most cue cues
  let p := History.ofReports (.input .blindSelect [] :: cues.map (·.report))
  have hwithin : ∀ cue ∈ cues, ∀ figures, cue.read = some figures → figures.Within most := by
    simp only [cues, cue, List.forall_mem_cons]
    refine ⟨?_, ?_, ?_, ?_, ?_, ?_, ?_, ?_⟩
    all_goals rintro _ ⟨⟩
    all_goals constructor <;> decide
  have hfirst : ∀ j, IsLeast (p.entries j) j → Cue.reads cues j ≠ none := by
    intro j hleast
    have hplays : p j = some .playing := hleast.1.2.2.2.1
    have hj : j < 8 := by
      by_contra hj
      have hnone : (.input .blindSelect [] :: cues.map (·.report))[j]? = none :=
        List.getElem?_eq_none (by simpa [cues] using hj)
      simp [p, History.ofReports, hnone] at hplays
    interval_cases j
    · cases hplays
    · decide
    · cases hplays
    · cases hplays
    · decide
    · cases hplays
    · have hentry : 4 ∈ p.entries 6 := ⟨by decide, by decide, by decide, rfl, by decide⟩
      exact absurd (hleast.2 hentry) (by decide)
    · decide
  have hmost : 4 * (2 ^ 61 - 1) ≤ 2 ^ 63 - 1 := by decide
  refine ⟨hmost, ?_⟩
  exact moves_of_bounded_reads hmost
    (fun j figures _ hread => by
      obtain ⟨cue, hcue, hfigures⟩ := Cue.exists_cue_of_reads hread
      exact hwithin cue hcue figures hfigures) hfirst

end Tracker
end BlindArena
