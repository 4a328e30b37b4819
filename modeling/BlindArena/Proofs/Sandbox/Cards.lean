import BlindArena.Sandbox.Rules
import Mathlib.Tactic.Linarith

/-!
# The sandbox's cards

Cards are numbers from one to eleven and stay so, drawing leaves the number of cards alone and puts
back what was picked, and at most five cards are ever picked. Hence a hand is worth at most 275
points.
-/

namespace BlindArena
namespace Sandbox

/-! ## Cards -/

/-- Cards are numbers from one to eleven. -/
def InRange (cards : List Card) : Prop := ∀ card ∈ cards, 1 ≤ card.value ∧ card.value ≤ 11

theorem inRange_cons {card : Card} {cards : List Card} :
    InRange (card :: cards) ↔ (1 ≤ card.value ∧ card.value ≤ 11) ∧ InRange cards :=
  List.forall_mem_cons

@[simp] theorem length_deal (count : Nat) (g : Generator) : (deal count g).1.length = count := by
  induction count generalizing g with
  | zero => rfl
  | succ count ih => simp [deal, ih]

theorem inRange_deal (count : Nat) (g : Generator) : InRange (deal count g).1 := by
  induction count generalizing g with
  | zero => simp [deal, InRange]
  | succ count ih => exact inRange_cons.2 ⟨g.card_range, ih _⟩

@[simp] theorem pickedCount_deal (count : Nat) (g : Generator) :
    pickedCount (deal count g).1 = 0 := by
  induction count generalizing g with
  | zero => rfl
  | succ count ih =>
    simp only [pickedCount] at ih
    simp [deal, pickedCount, ih]

@[simp] theorem length_redraw (cards : List Card) (g : Generator) :
    (redraw cards g).1.length = cards.length := by
  induction cards generalizing g with
  | nil => rfl
  | cons card cards ih => cases h : card.picked <;> simp [redraw, h, ih]

theorem inRange_redraw {cards : List Card} (h : InRange cards) (g : Generator) :
    InRange (redraw cards g).1 := by
  induction cards generalizing g with
  | nil => exact h
  | cons card cards ih =>
    obtain ⟨hcard, hcards⟩ := inRange_cons.1 h
    cases hpicked : card.picked with
    | false =>
      simp only [redraw, hpicked, Bool.false_eq_true, if_false]
      exact inRange_cons.2 ⟨hcard, ih hcards _⟩
    | true =>
      simp only [redraw, hpicked, if_true]
      exact inRange_cons.2 ⟨g.card_range, ih hcards _⟩

@[simp] theorem pickedCount_redraw (cards : List Card) (g : Generator) :
    pickedCount (redraw cards g).1 = 0 := by
  simp only [pickedCount]
  induction cards generalizing g with
  | nil => rfl
  | cons card cards ih => cases h : card.picked <;> simp [redraw, h, ih]

@[simp] theorem length_pickFirst (cards : List Card) : (pickFirst cards).length = cards.length := by
  unfold pickFirst
  split
  · cases cards <;> rfl
  · rfl

theorem inRange_pickFirst {cards : List Card} (h : InRange cards) : InRange (pickFirst cards) := by
  unfold pickFirst
  split
  · cases cards with
    | nil => exact h
    | cons card cards =>
      obtain ⟨hcard, hcards⟩ := inRange_cons.1 h
      exact inRange_cons.2 ⟨hcard, hcards⟩
  · exact h

theorem pickedCount_pickFirst {cards : List Card} (h : pickedCount cards ≤ maxPicked) :
    pickedCount (pickFirst cards) ≤ maxPicked := by
  unfold pickFirst
  split
  · rename_i hnone
    cases cards with
    | nil => exact h
    | cons card cards =>
      have hrest : pickedCount cards = 0 := by
        simp only [pickedCount, List.countP_cons] at hnone ⊢
        omega
      simp only [pickedCount] at hrest
      simp [pickedCount, hrest, maxPicked]
  · exact h

/-- A hand is never empty. -/
theorem pickedCount_pickFirst_pos {cards : List Card} (h : cards ≠ []) :
    0 < pickedCount (pickFirst cards) := by
  unfold pickFirst
  split
  · cases cards with
    | nil => exact absurd rfl h
    | cons card cards => simp [pickedCount]
  · rename_i hsome
    exact Nat.pos_of_ne_zero hsome

theorem pickedCount_toggle {cards : List Card} {place : Nat} {card : Card}
    (hcard : cards[place]? = some card) (hmay : mayToggle cards card = true)
    (h : pickedCount cards ≤ maxPicked) :
    pickedCount (cards.set place { card with picked := !card.picked }) ≤ maxPicked := by
  obtain ⟨hplace, rfl⟩ := List.getElem?_eq_some_iff.1 hcard
  simp only [mayToggle, Bool.or_eq_true, decide_eq_true_eq] at hmay
  simp only [pickedCount, List.countP_set hplace] at h hmay ⊢
  cases hpicked : cards[place].picked with
  | false =>
    simp only [hpicked, Bool.false_eq_true, false_or] at hmay
    simp only [Bool.false_eq_true, if_false, Bool.not_false, if_true]
    omega
  | true =>
    simp only [if_true, Bool.not_true, Bool.false_eq_true, if_false]
    omega

theorem inRange_toggle {cards : List Card} (h : InRange cards) {place : Nat} {card : Card}
    (hcard : cards[place]? = some card) :
    InRange (cards.set place { card with picked := !card.picked }) := by
  intro other hother
  rcases List.mem_or_eq_of_mem_set hother with hmem | rfl
  · exact h other hmem
  · exact h card (List.mem_of_getElem? hcard)

/-! ## Points -/

theorem sum_pickedValues {cards : List Card} (h : InRange cards) :
    (pickedCount cards : Int) ≤ (pickedValues cards).foldr (· + ·) 0 ∧
      (pickedValues cards).foldr (· + ·) 0 ≤ (11 * pickedCount cards : Int) := by
  induction cards with
  | nil => simp [pickedValues, pickedCount]
  | cons card cards ih =>
    obtain ⟨hcard, hcards⟩ := inRange_cons.1 h
    have hrest := ih hcards
    cases hpicked : card.picked with
    | false => simpa [pickedValues, pickedCount, hpicked] using hrest
    | true =>
      simp only [pickedValues, pickedCount, hpicked, List.filter_cons_of_pos, List.map_cons,
        List.foldr_cons, List.countP_cons_of_pos] at hrest ⊢
      omega

@[simp] theorem length_pickedValues (cards : List Card) :
    (pickedValues cards).length = pickedCount cards := by
  simp [pickedValues, pickedCount, List.countP_eq_length_filter]

/-- The most a hand can be worth. -/
def mostPoints : Int := 275

theorem points_le {cards : List Card} (h : InRange cards)
    (hpicked : pickedCount cards ≤ maxPicked) :
    0 ≤ points (pickedValues cards) ∧ points (pickedValues cards) ≤ mostPoints := by
  obtain ⟨hcount_le, hle⟩ := sum_pickedValues h
  have hcount : (pickedCount cards : Int) ≤ 5 := by
    simp only [maxPicked] at hpicked
    omega
  simp only [points, length_pickedValues, mostPoints]
  constructor
  · nlinarith
  · nlinarith

/-- A picked card is worth at least one point. -/
theorem points_pos {cards : List Card} (h : InRange cards) (hpicked : 0 < pickedCount cards) :
    0 < points (pickedValues cards) := by
  obtain ⟨hcount_le, -⟩ := sum_pickedValues h
  have hcount : (0 : Int) < pickedCount cards := by exact_mod_cast hpicked
  rw [points, length_pickedValues]
  exact mul_pos (hcount.trans_le hcount_le) hcount

end Sandbox
end BlindArena
