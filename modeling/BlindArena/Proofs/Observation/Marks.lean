import BlindArena.Mask
import Mathlib.Data.List.Sort

/-!
# Marks of a mask

A mask is made by marking its indices one after the other, in whatever order and however often; what
has no bit is passed over. Read back it gives the marked indices in strictly increasing order, so a
mask is made from nothing but the set of indices that have a bit.
-/

namespace BlindArena
namespace Mask

/-- The bit of an index is set, if it has one. -/
def mark (m : Mask) (i : Index) : Mask :=
  if h : i < actionSpace then ⟨m.bits.set i true⟩ else m

variable {m : Mask} {legal : List Index} {i : Index}

theorem get_mark (m : Mask) (i j : Index) :
    (m.mark i).get j = (m.get j || decide (j < actionSpace) && j == i) := by
  by_cases hj : j < actionSpace
  · by_cases hi : i < actionSpace
    · by_cases hsame : i = j
      · simp [mark, get, hj, hsame]
      · have hne : j ≠ i := Ne.symm hsame
        simp [mark, get, hj, hi, hsame, hne]
    · have hne : j ≠ i := fun hsame => hi (hsame ▸ hj)
      simp [mark, hi, hne]
  · simp [get, hj]

theorem get_foldl_mark (legal : List Index) (m : Mask) (j : Index) :
    (legal.foldl mark m).get j =
      (m.get j || decide (j < actionSpace) && legal.contains j) := by
  induction legal generalizing m with
  | nil => simp
  | cons i legal ih =>
    rw [List.foldl_cons, ih, get_mark, List.contains_cons, Bool.and_or_distrib_left,
      Bool.or_assoc]

/-- A mask is made by marking its indices in turn. -/
theorem foldl_mark (legal : List Index) : legal.foldl mark empty = ofIndices legal := by
  refine ext_get fun j _ => ?_
  rw [get_foldl_mark, get_ofIndices, empty, get_ofIndices]
  simp

theorem get_ofIndices_iff : (ofIndices legal).get i = true ↔ i ∈ legal ∧ i < actionSpace := by
  simp [get_ofIndices, and_comm]

/-! ## Reading back -/

theorem pairwise_indices (m : Mask) : m.indices.Pairwise (· < ·) :=
  List.pairwise_lt_range.filter _

theorem mem_indices : i ∈ m.indices ↔ m.get i = true := by
  simp only [indices, List.mem_filter, List.mem_range]
  refine ⟨And.right, fun h => ⟨Nat.lt_of_not_le fun hle => ?_, h⟩⟩
  rw [get_of_le hle] at h
  cases h

theorem mem_indices_ofIndices : i ∈ (ofIndices legal).indices ↔ i ∈ legal ∧ i < actionSpace :=
  mem_indices.trans get_ofIndices_iff

theorem ofIndices_indices (m : Mask) : ofIndices m.indices = m := by
  refine ext_get fun i hi => Bool.eq_iff_iff.2 ?_
  rw [get_ofIndices_iff, mem_indices]
  exact and_iff_left hi

/-- A list that is strictly increasing and within the mask is read back as it is. -/
theorem indices_ofIndices (hincreasing : legal.Pairwise (· < ·))
    (hlt : ∀ i ∈ legal, i < actionSpace) : (ofIndices legal).indices = legal := by
  refine (pairwise_indices _).eq_of_mem_iff hincreasing fun i => ?_
  rw [mem_indices_ofIndices]
  exact ⟨And.left, fun h => ⟨h, hlt i h⟩⟩

theorem ofIndices_eq_iff {legal' : List Index} :
    ofIndices legal = ofIndices legal' ↔ ∀ i < actionSpace, i ∈ legal ↔ i ∈ legal' := by
  constructor
  · intro h i hi
    have hmem := congrArg (i ∈ indices ·) h
    simpa [mem_indices_ofIndices, hi] using hmem
  · intro h
    refine ext_get fun i hi => Bool.eq_iff_iff.2 ?_
    rw [get_ofIndices_iff, get_ofIndices_iff, h i hi]

/-- The bits are those of the indices in order. -/
theorem toList_bits (m : Mask) : m.bits.toList = (List.range actionSpace).map m.get := by
  apply List.ext_getElem
  · simp
  · intro i hi _
    have hlt : i < actionSpace := by simpa using hi
    simp [get, hlt]

theorem count_eq (m : Mask) : m.count = m.indices.length := by
  rw [count, toList_bits, List.countP_map, indices, ← List.countP_eq_length_filter]
  rfl

end Mask
end BlindArena
