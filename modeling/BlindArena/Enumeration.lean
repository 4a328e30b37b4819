/-!
# Named enumerations

A finite type whose members are listed in order, each under a name of its own. Reading a name is a
search through the list, and it inverts naming.
-/

namespace BlindArena

class Enumeration (α : Type) where
  all : List α
  name : α → String
  mem_all : ∀ a, a ∈ all
  nodup_names : (all.map name).Nodup

namespace Enumeration
variable {α : Type} [Enumeration α]

theorem name_injective {a b : α} (h : name a = name b) : a = b := by
  obtain ⟨i, hi, rfl⟩ := List.getElem_of_mem (mem_all a)
  obtain ⟨j, hj, rfl⟩ := List.getElem_of_mem (mem_all b)
  have hdistinct := List.pairwise_iff_getElem.1 (List.pairwise_map.1 (nodup_names (α := α)))
  rcases Nat.lt_trichotomy i j with hij | rfl | hji
  · exact absurd h (hdistinct i j hi hj hij)
  · rfl
  · exact absurd h.symm (hdistinct j i hj hi hji)

/-- Names are matched exactly, case included. -/
def ofName? (text : String) : Option α :=
  (all : List α).find? fun a => name a == text

theorem ofName?_eq_some_iff {text : String} {a : α} : ofName? text = some a ↔ name a = text := by
  constructor
  · intro h
    simpa using List.find?_some h
  · rintro rfl
    obtain ⟨b, hb⟩ := Option.isSome_iff_exists.1
      (List.find?_isSome (p := fun c : α => name c == name a).2 ⟨a, mem_all a, by simp⟩)
    have : b = a := name_injective (by simpa using List.find?_some hb)
    subst this
    exact hb

@[simp] theorem ofName?_name (a : α) : ofName? (name a) = some a :=
  ofName?_eq_some_iff.2 rfl

end Enumeration

end BlindArena
