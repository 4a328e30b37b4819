import BlindArena.Terminal.Descriptors
import Mathlib.Data.List.Basic
import Mathlib.Order.Basic

/-!
# Tables of descriptors by their devices

Opening, redirecting and closing change one place of a table and leave the others alone. Where a new
descriptor goes depends on which places are free and on nothing else, so a table that is filled and
emptied again gives out the same descriptors as before.
-/

namespace BlindArena
namespace Descriptors
variable {table other : Descriptors} {place source : Nat} {device : Device}

theorem lt_of_device? (h : table.device? place = some device) : place < table.slots.length := by
  by_contra hge
  rw [device?, List.getElem?_eq_none (Nat.le_of_not_lt hge)] at h
  cases h

theorem join_assign {slots : List (Option Device)} (h : place ≤ slots.length)
    (device : Option Device) (d : Nat) :
    (assign slots place device)[d]?.join = if d = place then device else slots[d]?.join := by
  unfold assign
  by_cases hlt : place < slots.length
  · rw [if_pos hlt, List.getElem?_set]
    by_cases hd : d = place
    · rw [if_pos hd.symm, if_pos hd, if_pos (hd ▸ hlt)]
      rfl
    · rw [if_neg (Ne.symm hd), if_neg hd]
  · obtain rfl : place = slots.length := Nat.le_antisymm h (Nat.le_of_not_lt hlt)
    rw [if_neg hlt]
    by_cases hd : d = slots.length
    · rw [if_pos hd, hd, List.getElem?_concat_length]
      rfl
    · rw [if_neg hd, List.getElem?_append]
      by_cases hin : d < slots.length
      · rw [if_pos hin]
      · have hbeyond : 1 ≤ d - slots.length := by omega
        rw [if_neg hin, List.getElem?_eq_none (Nat.le_of_not_lt hin),
          List.getElem?_eq_none hbeyond]

theorem lowestFree_le (table : Descriptors) : table.lowestFree ≤ table.slots.length :=
  List.findIdx_le_length

theorem device?_lowestFree (table : Descriptors) : table.device? table.lowestFree = none := by
  unfold device?
  by_cases hlt : table.lowestFree < table.slots.length
  · have hfree : (table.slots[table.lowestFree]).isNone = true := List.findIdx_getElem
    rw [List.getElem?_eq_getElem hlt, Option.isNone_iff_eq_none.1 hfree]
    rfl
  · rw [List.getElem?_eq_none (Nat.le_of_not_lt hlt)]
    rfl

theorem lowestFree_le_of_free (h : table.device? place = none) : table.lowestFree ≤ place := by
  by_contra hlt
  have hin : place < table.slots.length :=
    Nat.lt_of_lt_of_le (Nat.lt_of_not_le hlt) (lowestFree_le table)
  have htaken : (table.slots[place]).isNone = false :=
    List.not_of_lt_findIdx (Nat.lt_of_not_le hlt)
  rw [device?, List.getElem?_eq_getElem hin] at h
  cases hslot : table.slots[place] with
  | none => simp [hslot] at htaken
  | some device => simp [hslot] at h

/-- The places that are free decide which is taken next. -/
theorem lowestFree_congr (h : ∀ d, table.device? d = none ↔ other.device? d = none) :
    table.lowestFree = other.lowestFree :=
  Nat.le_antisymm (lowestFree_le_of_free ((h _).2 (device?_lowestFree other)))
    (lowestFree_le_of_free ((h _).1 (device?_lowestFree table)))

theorem device?_openDevice (table : Descriptors) (device : Option Device) (d : Nat) :
    (table.openDevice device).1.device? d =
      if d = table.lowestFree then device else table.device? d :=
  join_assign (lowestFree_le table) device d

theorem device?_redirect (h : table.device? place = some device) (source d : Nat) :
    (table.redirect source place).device? d =
      if d = place then table.device? source else table.device? d :=
  join_assign (Nat.le_of_lt (lt_of_device? h)) _ d

theorem device?_close (h : table.device? place = some device) (d : Nat) :
    (table.close place).device? d = if d = place then none else table.device? d :=
  join_assign (Nat.le_of_lt (lt_of_device? h)) none d

theorem lowestFree_ne (h : table.device? place = some device) : table.lowestFree ≠ place := by
  rintro rfl
  rw [device?_lowestFree] at h
  cases h

/-! ## Berths -/

/-- The descriptors that silence takes for its sink and for a copy of each channel's. -/
structure Berths where
  sink : Nat
  copy : Channel → Nat

/-- The table with its lowest free place taken. -/
def taken (table : Descriptors) : Descriptors := (table.openDevice (some .sink)).1

/-- The three lowest free places, in turn. -/
def berths (table : Descriptors) : Berths where
  sink := table.lowestFree
  copy
    | .out => table.taken.lowestFree
    | .err => table.taken.taken.lowestFree

def Berths.places (berths : Berths) : List Nat := [berths.sink, berths.copy .out, berths.copy .err]

theorem device?_taken (table : Descriptors) (d : Nat) :
    table.taken.device? d = if d = table.lowestFree then some .sink else table.device? d :=
  device?_openDevice table _ d

theorem free_taken (d : Nat) :
    table.taken.device? d = none ↔ d ≠ table.lowestFree ∧ table.device? d = none := by
  rw [device?_taken]
  by_cases hd : d = table.lowestFree
  · simp [hd]
  · simp [hd]

theorem free_taken_congr (h : ∀ d, table.device? d = none ↔ other.device? d = none) (d : Nat) :
    table.taken.device? d = none ↔ other.taken.device? d = none := by
  rw [free_taken, free_taken, lowestFree_congr h, h]

/-- The berths are three different places, and free. -/
theorem berths_free (table : Descriptors) :
    table.berths.places.Nodup ∧ ∀ place ∈ table.berths.places, table.device? place = none := by
  have hsink := device?_lowestFree table
  obtain ⟨hout, hfree⟩ := free_taken _ |>.1 (device?_lowestFree table.taken)
  obtain ⟨herr, hfree'⟩ := free_taken _ |>.1 (device?_lowestFree table.taken.taken)
  obtain ⟨herr', hfree''⟩ := free_taken _ |>.1 hfree'
  constructor
  · simp [Berths.places, berths, hout.symm, herr.symm, herr'.symm]
  · simp [Berths.places, berths, hsink, hfree, hfree'']

end Descriptors
end BlindArena
