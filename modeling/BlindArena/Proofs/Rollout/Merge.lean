import BlindArena.Rollout.Summary
import Mathlib.Data.List.Perm.Subperm
import Mathlib.Data.Set.Basic

/-!
# Merging runs of episodes

When several runs of episodes are played side by side, one step each a round, an episode is
completed in a known round. Completions are ordered by round and, within a round, by seat. The first
so many of a set of completions are fixed by the set, which may be infinite.
-/

namespace BlindArena

structure Completion where
  round : Nat
  seat : Nat
  summary : Summary

namespace Completion

def Before (c d : Completion) : Prop := c.round < d.round ∨ c.round = d.round ∧ c.seat < d.seat

theorem Before.asymm {c d : Completion} (h : c.Before d) : ¬ d.Before c := by
  simp only [Before] at h ⊢
  omega

end Completion

open Completion

/-- The completions of one run of episodes whose first one began after round `clock`. -/
def schedule (seat clock : Nat) : List Summary → List Completion
  | [] => []
  | s :: later => ⟨clock + s.steps, seat, s⟩ :: schedule seat (clock + s.steps) later

theorem seat_of_schedule {seat clock : Nat} {summaries : List Summary} {c : Completion}
    (h : c ∈ schedule seat clock summaries) : c.seat = seat ∧ clock ≤ c.round := by
  induction summaries generalizing clock with
  | nil => cases h
  | cons s later ih =>
    rcases List.mem_cons.1 h with rfl | h
    · exact ⟨rfl, Nat.le_add_right _ _⟩
    · exact ⟨(ih h).1, (Nat.le_add_right _ _).trans (ih h).2⟩

/-- The completions of one round, given what ends in it at each place. -/
def completions (round : Nat) (ends : List (Option Summary)) : List Completion :=
  ends.zipIdx.filterMap fun (ended, place) => ended.map (⟨round, place, ·⟩)

section completions
variable {round : Nat} {ends : List (Option Summary)} {c : Completion}

theorem mem_completions :
    c ∈ completions round ends ↔ c.round = round ∧ ends[c.seat]? = some (some c.summary) := by
  simp only [completions, List.mem_filterMap, Prod.exists, List.mk_mem_zipIdx_iff_getElem?,
    Option.map_eq_some_iff]
  constructor
  · rintro ⟨ended, place, hplace, s, rfl, rfl⟩
    exact ⟨rfl, hplace⟩
  · rintro ⟨rfl, hplace⟩
    exact ⟨some c.summary, c.seat, hplace, c.summary, rfl, rfl⟩

theorem map_completions : (completions round ends).map (·.summary) = ends.filterMap id := by
  calc (completions round ends).map (·.summary)
      = ends.zipIdx.filterMap fun p => p.1 := by
        simp [completions, List.map_filterMap, Option.map_map, Function.comp_def]
    _ = (ends.zipIdx.map Prod.fst).filterMap id := by
        rw [List.filterMap_map]
        rfl
    _ = ends.filterMap id := by rw [List.zipIdx_map_fst]

theorem pairwise_completions : (completions round ends).Pairwise Before := by
  have hplaces : ends.zipIdx.Pairwise fun p q => p.2 < q.2 := by
    rw [← List.pairwise_map, List.zipIdx_map_snd]
    exact List.pairwise_lt_range'
  rw [completions, List.pairwise_filterMap]
  apply hplaces.imp
  intro p q hlt c hc d hd
  obtain ⟨s, -, rfl⟩ := Option.map_eq_some_iff.1 hc
  obtain ⟨s', -, rfl⟩ := Option.map_eq_some_iff.1 hd
  exact Or.inr ⟨rfl, hlt⟩

end completions

/-- The first `count` elements, in order. -/
structure FirstOf (count : Nat) (all : Set Completion) (first : List Completion) : Prop where
  length : first.length = count
  ordered : first.Pairwise Before
  mem : ∀ c ∈ first, c ∈ all
  before : ∀ c ∈ all, c ∉ first → ∀ d ∈ first, d.Before c

namespace FirstOf
variable {count : Nat} {all later : Set Completion} {now first first' : List Completion}

theorem zero (all : Set Completion) : FirstOf 0 all [] where
  length := rfl
  ordered := List.Pairwise.nil
  mem := by simp
  before := by simp

/-- Those of a round come first, as many of them as are wanted. -/
theorem round (hnow : now.Pairwise Before) (hlater : ∀ c ∈ now, ∀ d ∈ later, c.Before d)
    (h : FirstOf (count - now.length) later first) :
    FirstOf count ({c | c ∈ now} ∪ later) (now.take count ++ first) where
  length := by
    have := h.length
    rw [List.length_append, List.length_take]
    omega
  ordered := by
    rw [List.pairwise_append]
    refine ⟨hnow.take, h.ordered, fun c hc d hd => ?_⟩
    exact hlater c (List.mem_of_mem_take hc) d (h.mem d hd)
  mem := by
    intro c hc
    rcases List.mem_append.1 hc with hc | hc
    · exact Or.inl (List.mem_of_mem_take hc)
    · exact Or.inr (h.mem c hc)
  before := by
    intro c hc hnot d hd
    rw [List.mem_append, not_or] at hnot
    rcases hc with hc | hc
    · have hdrop : c ∈ now.drop count := by
        rw [← List.take_append_drop count now] at hc
        exact (List.mem_append.1 hc).resolve_left hnot.1
      -- not all of the round are wanted, so nothing after it is
      have hlong : count < now.length := by
        by_contra hshort
        simp [List.drop_eq_nil_of_le (Nat.le_of_not_lt hshort)] at hdrop
      have hnone : first = [] := List.length_eq_zero_iff.1 (by rw [h.length]; omega)
      rw [hnone, List.append_nil] at hd
      rw [← List.take_append_drop count now] at hnow
      exact (List.pairwise_append.1 hnow).2.2 d hd c hdrop
    · rcases List.mem_append.1 hd with hd | hd
      · exact hlater d (List.mem_of_mem_take hd) c hc
      · exact h.before c hc hnot.2 d hd

theorem nodup (h : FirstOf count all first) : first.Nodup := by
  apply h.ordered.imp
  rintro c _ hbefore rfl
  exact hbefore.asymm hbefore

theorem perm_of_subset (h : FirstOf count all first) (h' : FirstOf count all first')
    (hsub : first ⊆ first') : first.Perm first' :=
  (List.subperm_of_subset h.nodup hsub).perm_of_length_le (by rw [h.length, h'.length])

/-- There is at most one such list. -/
theorem unique (h : FirstOf count all first) (h' : FirstOf count all first') : first = first' := by
  by_cases hsub : first ⊆ first'
  · exact List.Perm.eq_of_pairwise (fun c d _ _ hcd hdc => absurd hdc hcd.asymm)
      h.ordered h'.ordered (h.perm_of_subset h' hsub)
  · obtain ⟨c, hc, hnot⟩ : ∃ c ∈ first, c ∉ first' := by simpa [List.subset_def] using hsub
    have hsub' : ¬ first' ⊆ first := fun hsub' => hnot ((h'.perm_of_subset h hsub').mem_iff.2 hc)
    obtain ⟨d, hd, hnot'⟩ : ∃ d ∈ first', d ∉ first := by simpa [List.subset_def] using hsub'
    exact absurd (h.before d (h'.mem d hd) hnot' c hc) (h'.before c (h.mem c hc) hnot d hd).asymm

end FirstOf
end BlindArena
