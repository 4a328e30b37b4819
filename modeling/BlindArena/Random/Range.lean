import BlindArena.Random.Generator

/-!
# Random ranges

A word is scaled to a range of `n` values by keeping the upper half of its product with `n`. When
the lower half is so large that a longer word could carry into the upper one, a second word is drawn
to decide the carry.
-/

namespace BlindArena

namespace Generator

/-- A value below `n` from words below `words`. -/
def below (words : Nat) (draw : Generator → Nat × Generator) (n : Nat) (g : Generator) :
    Nat × Generator :=
  let first := draw g
  let product := first.1 * n
  let high := product / words
  let low := product % words
  if words - n < low then
    let second := draw first.2
    let carried := words ≤ low + second.1 * n / words
    (if carried then high + 1 else high, second.2)
  else (high, first.2)

theorem below_lt {words n : Nat} {draw : Generator → Nat × Generator} (g : Generator)
    (hdraw : ∀ g, (draw g).1 < words) (hn : 0 < n) : (below words draw n g).1 < n := by
  have hfirst := hdraw g
  have hw : 0 < words := Nat.zero_lt_of_lt hfirst
  have hhigh : (draw g).1 * n / words < n := by
    rw [Nat.div_lt_iff_lt_mul hw, Nat.mul_comm n]
    exact Nat.mul_lt_mul_of_pos_right hfirst hn
  simp only [below]
  split
  · rename_i hlow
    split
    · have hproduct : (draw g).1 * n + n ≤ n * words := by
        rw [← Nat.succ_mul, Nat.mul_comm n]
        exact Nat.mul_le_mul_right n hfirst
      have hdiv := Nat.div_add_mod ((draw g).1 * n) (words)
      generalize (draw g).1 * n / words = high at *
      generalize (draw g).1 * n % words = low at *
      apply Nat.lt_of_le_of_ne hhigh
      intro heq
      have : words * high + words = n * words := by
        rw [← Nat.mul_succ, heq, Nat.mul_comm]
      omega
    · exact hhigh
  · exact hhigh

/-- A value below `n`, from half words. -/
def below32 (n : Nat) (g : Generator) : Nat × Generator := below UInt32.size word32 n g

theorem below32_lt {n : Nat} (g : Generator) (hn : 0 < n) : (below32 n g).1 < n :=
  below_lt g word32_lt hn

/-- A member of the list; an empty list takes no word. -/
def choose? {α : Type} (items : List α) (g : Generator) : Option α × Generator :=
  if items.isEmpty then (none, g)
  else
    let (place, g) := below32 items.length g
    (items[place]?, g)

theorem choose?_mem {α : Type} {items : List α} (g : Generator) (h : items ≠ []) :
    ∃ a ∈ items, (choose? items g).1 = some a := by
  have hlt := below32_lt g (List.length_pos_iff.2 h)
  refine ⟨items[(below32 items.length g).1], List.getElem_mem _, ?_⟩
  simp [choose?, h]

/-- The value of a card: one to eleven. -/
def card (g : Generator) : Int × Generator :=
  let (value, g) := below UInt64.size word64 11 g
  (1 + (value : Int), g)

theorem card_range (g : Generator) : 1 ≤ g.card.1 ∧ g.card.1 ≤ 11 := by
  have := @below_lt UInt64.size 11 word64 g word64_lt (by decide)
  simp only [card]
  omega

end Generator

end BlindArena
