import BlindArena.Report

/-!
# Action masks

The legal indices as a row of bits over the whole action space. Indices past it have no bit.
-/

namespace BlindArena

/-- The size of the action space. -/
abbrev actionSpace : Nat := 100

structure Mask where
  bits : Vector Bool actionSpace
  deriving DecidableEq

namespace Mask

def ofIndices (legal : List Index) : Mask := ⟨Vector.ofFn fun i => legal.contains i.val⟩

def empty : Mask := ofIndices []

def get (m : Mask) (i : Index) : Bool := if h : i < actionSpace then m.bits[i] else false

def indices (m : Mask) : List Index := (List.range actionSpace).filter m.get

def count (m : Mask) : Nat := m.bits.toList.countP id

theorem get_of_le {m : Mask} {i : Index} (h : actionSpace ≤ i) : m.get i = false :=
  dif_neg (Nat.not_lt.2 h)

theorem get_ofIndices (legal : List Index) (i : Index) :
    (ofIndices legal).get i = (decide (i < actionSpace) && legal.contains i) := by
  by_cases h : i < actionSpace
  · simp [get, ofIndices, h]
  · simp [get, h]

theorem ext_get {m n : Mask} (h : ∀ i < actionSpace, m.get i = n.get i) : m = n := by
  obtain ⟨bits⟩ := m
  obtain ⟨bits'⟩ := n
  congr
  ext i hi
  simpa [get, hi] using congrArg (· = true) (h i hi)

end Mask

end BlindArena
