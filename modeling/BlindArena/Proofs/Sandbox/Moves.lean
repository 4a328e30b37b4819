import BlindArena.Sandbox.Rules

/-!
# The sandbox's moves

What an action can come to, with the phase and the guard under which each case arises, and what the
larger moves leave. Later statements about actions go by these cases and do not open the rules.
-/

namespace BlindArena
namespace Sandbox

/-- The action means something in the present phase. -/
def Means (s : Sandbox) (action : Index) : Prop :=
  match s.phase with
  | .blindSelect => action = 1 ∨ action = 2 ∧ s.blind ≠ .boss
  | .playing =>
    action = 0 ∨ action = 1 ∧ 0 < s.discards ∨ 2 ≤ action ∧ action < 2 + handSize
  | .roundEnd => action = 0
  | .shop => action = 0 ∨ action = 1 ∧ rerollCost ≤ s.money ∨ action = 2 ∧ packCost ≤ s.money
  | .shopPackSelection => True
  | .gameOver => action = 1 ∨ action = 4

inductive Moved (s : Sandbox) : Index → Spoken Sandbox → Prop
  | begins (hphase : s.phase = .blindSelect) : Moved s 1 s.beginBlind
  | skips (hphase : s.phase = .blindSelect) (hblind : s.blind ≠ .boss) : Moved s 2 ⟨s.nextBlind, []⟩
  | plays (hphase : s.phase = .playing) : Moved s 0 s.play
  | discards (hphase : s.phase = .playing) (hleft : 0 < s.discards) : Moved s 1 ⟨s.discard, []⟩
  | toggles (hphase : s.phase = .playing) {place : Nat} (hplace : place < handSize) :
      Moved s (2 + place) ⟨s.toggle place, []⟩
  | cashes (hphase : s.phase = .roundEnd) : Moved s 0 s.cashOut
  | leaves (hphase : s.phase = .shop) : Moved s 0 ⟨s.nextBlind, []⟩
  | rerolls (hphase : s.phase = .shop) (hmoney : rerollCost ≤ s.money) :
      Moved s 1 ⟨{ s with money := s.money - rerollCost }, []⟩
  | opens (hphase : s.phase = .shop) (hmoney : packCost ≤ s.money) :
      Moved s 2 ⟨{ s with money := s.money - packCost, phase := .shopPackSelection }, []⟩
  | resolves {action : Index} (hphase : s.phase = .shopPackSelection) :
      Moved s action ⟨{ s with phase := .shop }, []⟩
  | again (hphase : s.phase = .gameOver) : Moved s 1 ⟨s.finish true, []⟩
  | exits (hphase : s.phase = .gameOver) : Moved s 4 ⟨s.finish false, []⟩
  | ignored {action : Index} (hmeans : ¬ s.Means action) : Moved s action (s.ignored action)

theorem moved_apply (s : Sandbox) (action : Index) : Moved s action (s.apply action) := by
  unfold apply
  cases hphase : s.phase with
  | blindSelect =>
    dsimp only
    split
    · rename_i hselect
      subst hselect
      exact .begins hphase
    · split
      · rename_i hskip
        obtain ⟨rfl, hblind⟩ := hskip
        exact .skips hphase hblind
      · exact .ignored (by simp_all [Means])
  | playing =>
    dsimp only
    split
    · rename_i hplay
      subst hplay
      exact .plays hphase
    · split
      · rename_i hdiscard
        obtain ⟨rfl, hleft⟩ := hdiscard
        exact .discards hphase hleft
      · split
        · rename_i htoggle
          obtain ⟨place, rfl⟩ := Nat.exists_eq_add_of_le htoggle.1
          rw [Nat.add_sub_cancel_left]
          exact .toggles hphase (Nat.lt_of_add_lt_add_left htoggle.2)
        · exact .ignored (by simp_all [Means])
  | roundEnd =>
    dsimp only
    split
    · rename_i hcash
      subst hcash
      exact .cashes hphase
    · exact .ignored (by simp_all [Means])
  | shop =>
    dsimp only
    split
    · rename_i hleave
      subst hleave
      exact .leaves hphase
    · split
      · rename_i hreroll
        obtain ⟨rfl, hmoney⟩ := hreroll
        rw [← hphase]
        exact .rerolls hphase hmoney
      · split
        · rename_i hpack
          obtain ⟨rfl, hmoney⟩ := hpack
          exact .opens hphase hmoney
        · exact .ignored (by simp_all [Means])
  | shopPackSelection => exact .resolves hphase
  | gameOver =>
    dsimp only
    split
    · rename_i hagain
      subst hagain
      exact .again hphase
    · split
      · rename_i hexit
        subst hexit
        exact .exits hphase
      · exact .ignored (by simp_all [Means])

theorem act_of_open {s : Sandbox} (hopen : s.outcome = none) (action : Index) :
    s.act (some action) = s.apply action := by
  simp only [act, hopen]

/-! ## What moves leave -/

theorem value_beginBlind (s : Sandbox) :
    s.beginBlind.value =
      { s with
        hands := handsPerBlind s.deck
        discards := discardsPerBlind s.deck
        chips := 0
        cards := (deal handSize s.rng).1
        rng := (deal handSize s.rng).2
        phase := .playing } := by
  unfold beginBlind
  generalize deal handSize s.rng = dealt
  rfl

theorem nextBlind_eq (s : Sandbox) :
    s.nextBlind =
      { s with blind := s.nextBlind.blind, ante := s.nextBlind.ante, phase := .blindSelect } := by
  unfold nextBlind
  cases s.blind <;> rfl

theorem discard_elim (s : Sandbox) :
    ∃ cards rng discards,
      s.discard = { s with cards := cards, rng := rng, discards := discards } := by
  unfold discard
  split
  · exact ⟨_, _, _, rfl⟩
  · exact ⟨_, _, _, rfl⟩

theorem toggle_elim (s : Sandbox) (place : Nat) :
    ∃ cards, s.toggle place = { s with cards := cards } := by
  unfold toggle
  split
  · split
    · exact ⟨_, rfl⟩
    · exact ⟨_, rfl⟩
  · exact ⟨_, rfl⟩

theorem play_elim (s : Sandbox) :
    ∃ phase, s.play.value = { s with
        chips := s.chips + points (pickedValues (pickFirst s.cards))
        score := s.score + points (pickedValues (pickFirst s.cards))
        hands := s.hands - 1
        cards := (redraw (pickFirst s.cards) s.rng).1
        rng := (redraw (pickFirst s.cards) s.rng).2
        phase := phase } ∧
      (phase = .roundEnd ∧ s.target ≤ s.chips + points (pickedValues (pickFirst s.cards)) ∨
        s.chips + points (pickedValues (pickFirst s.cards)) < s.target ∧
          (phase = .gameOver ∧ s.hands - 1 = 0 ∨ phase = s.phase ∧ s.hands - 1 ≠ 0)) := by
  unfold play
  dsimp only
  generalize redraw (pickFirst s.cards) s.rng = drawn
  generalize points (pickedValues (pickFirst s.cards)) = gained
  split
  · rename_i htarget
    exact ⟨.roundEnd, rfl, Or.inl ⟨rfl, htarget⟩⟩
  · rename_i htarget
    have hbelow : s.chips + gained < s.target := Int.not_le.1 htarget
    split
    · rename_i hhands
      exact ⟨.gameOver, rfl, Or.inr ⟨hbelow, Or.inl ⟨rfl, hhands⟩⟩⟩
    · rename_i hhands
      exact ⟨s.phase, rfl, Or.inr ⟨hbelow, Or.inr ⟨rfl, hhands⟩⟩⟩

end Sandbox
end BlindArena
