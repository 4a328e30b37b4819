import BlindArena.Report
import BlindArena.Reward

/-!
# Resolutions

A requested action is reconciled with the legal indices. A legal one passes. Any other is replaced
by the first legal one, or by 0 when there is none, and carries a penalty; it is never refused.
-/

namespace BlindArena

structure Resolution where
  requested : Index
  effective : Index
  penalty : Float32
  remapped : Bool

namespace Resolution

def resolve (requested : Index) (legal : List Index) : Resolution :=
  if requested ∈ legal then ⟨requested, requested, 0, false⟩
  else match legal with
    | first :: _ => ⟨requested, first, Reward.remapPenalty, true⟩
    | [] => ⟨requested, 0, Reward.emptyPenalty, true⟩

@[simp] theorem requested_resolve (requested : Index) (legal : List Index) :
    (resolve requested legal).requested = requested := by
  unfold resolve
  split
  · rfl
  · split <;> rfl

theorem resolve_of_mem {requested : Index} {legal : List Index} (h : requested ∈ legal) :
    resolve requested legal = ⟨requested, requested, 0, false⟩ := if_pos h

theorem remapped_resolve (requested : Index) (legal : List Index) :
    (resolve requested legal).remapped = decide (requested ∉ legal) := by
  unfold resolve
  split
  · simp [*]
  · split <;> simp [*]

/-- Only a legal action passes as it is. -/
theorem passes_iff {requested : Index} {legal : List Index} :
    (resolve requested legal).remapped = false ∧ (resolve requested legal).effective = requested ↔
      requested ∈ legal := by
  constructor
  · rintro ⟨hremapped, -⟩
    simpa [remapped_resolve] using hremapped
  · intro h
    simp [resolve_of_mem h]

/-- What is sent is legal, or 0 when nothing is. -/
theorem effective_resolve (requested : Index) (legal : List Index) :
    (resolve requested legal).effective ∈ legal ∨
      legal = [] ∧ (resolve requested legal).effective = 0 := by
  unfold resolve
  split
  · exact Or.inl ‹_›
  · split <;> simp

end Resolution

end BlindArena
