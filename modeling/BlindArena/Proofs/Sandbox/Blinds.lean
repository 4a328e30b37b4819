import BlindArena.Proofs.Sandbox.Choices

/-!
# How a blind goes

A blind is entered by selecting it and left by the hand that reaches its target or that is the last
one and does not. Between these the hands left and the hands played add up to the hands of a blind,
the chips stay below the target, and only a hand adds to chips and score, to both the same.
-/

namespace BlindArena
namespace Sandbox

/-! ## Rows of actions -/

/-- The sandbox after one action; without one it is only probed. -/
def next (s : Sandbox) (action : Option Index) : Sandbox := (engine.step s action).value.2

def after (s : Sandbox) (actions : List (Option Index)) : Sandbox := actions.foldl next s

/-- The action selects the blind on offer. -/
def Selects (s : Sandbox) (action : Option Index) : Prop :=
  s.phase = .blindSelect ∧ action = some 1

/-- The action plays a hand. -/
def Plays (s : Sandbox) (action : Option Index) : Prop := s.phase = .playing ∧ action = some 0

instance (s : Sandbox) (action : Option Index) : Decidable (s.Selects action) :=
  inferInstanceAs (Decidable (_ ∧ _))

instance (s : Sandbox) (action : Option Index) : Decidable (s.Plays action) :=
  inferInstanceAs (Decidable (_ ∧ _))

/-- How many of the actions are such, each taken where the ones before it lead. -/
def tally (p : Sandbox → Option Index → Prop) [∀ s action, Decidable (p s action)] (s : Sandbox) :
    List (Option Index) → Nat
  | [] => 0
  | action :: actions => (if p s action then 1 else 0) + tally p (s.next action) actions

/-- A run with this deck and stake, just started. -/
def opening (seed : UInt64) (deck : Deck) (stake : Stake) : Sandbox :=
  ((fresh seed).configure deck stake).resetRun

variable {s : Sandbox} {most : Nat}

theorem next_eq (s : Sandbox) (action : Option Index) : s.next action = (s.act action).value := rfl

theorem Reached.next (h : s.Reached) (action : Option Index) : (s.next action).Reached :=
  h.perform (.step action)

theorem Reached.after (h : s.Reached) (actions : List (Option Index)) :
    (s.after actions).Reached := by
  induction actions generalizing s with
  | nil => exact h
  | cons action actions ih => exact ih (h.next action)

/-! ## The present blind -/

/-- How the present blind stands, by the phase, with so many hands to a blind. -/
structure Judged (most : Nat) (s : Sandbox) : Prop where
  most_eq : handsPerBlind s.deck = most
  playing : s.phase = .playing → 1 ≤ s.hands ∧ s.hands ≤ most ∧ s.chips < s.target
  beaten : s.phase = .roundEnd → s.target ≤ s.chips ∧ s.hands < most
  lost : s.phase = .gameOver → s.hands = 0 ∧ s.chips < s.target

theorem judged_opening (seed : UInt64) (deck : Deck) (stake : Stake) :
    (opening seed deck stake).Judged (handsPerBlind deck) where
  most_eq := rfl
  playing := by simp [opening, resetRun]
  beaten := by simp [opening, resetRun]
  lost := by simp [opening, resetRun]

/-- Before a blind is played, and once it is cashed out, nothing is asked of it. -/
theorem Judged.idle {s' : Sandbox} (h : s.Judged most) (hdeck : s'.deck = s.deck)
    (hphase : s'.phase = .blindSelect ∨ s'.phase = .shop ∨ s'.phase = .shopPackSelection) :
    s'.Judged most where
  most_eq := hdeck ▸ h.most_eq
  playing := by rcases hphase with hphase | hphase | hphase <;> simp [hphase]
  beaten := by rcases hphase with hphase | hphase | hphase <;> simp [hphase]
  lost := by rcases hphase with hphase | hphase | hphase <;> simp [hphase]

theorem Judged.beginBlind (h : s.Judged most) (hs : s.Sound) : s.beginBlind.value.Judged most := by
  obtain ⟨hpos, -⟩ := handsPerBlind_range s.deck
  have htarget : 0 < s.target := target_pos hs.ante_pos
  rw [value_beginBlind]
  generalize deal handSize s.rng = dealt
  exact {
    most_eq := h.most_eq
    playing := fun _ => ⟨hpos, h.most_eq.le, htarget⟩
    beaten := by simp
    lost := by simp }

/-- A hand goes on only below the target and with a hand left. -/
theorem Judged.play (h : s.Judged most) (hphase : s.phase = .playing) :
    s.play.value.Judged most := by
  obtain ⟨hhands, hmost, -⟩ := h.playing hphase
  obtain ⟨phase, hplay, hends⟩ := play_elim s
  rw [hplay]
  generalize points (pickedValues (pickFirst s.cards)) = gained at *
  rcases hends with ⟨rfl, hbeaten⟩ | ⟨hbelow, ⟨rfl, hnone⟩ | ⟨rfl, hleft⟩⟩
  · exact {
      most_eq := h.most_eq
      playing := by simp
      beaten := fun _ => ⟨hbeaten, by dsimp only; omega⟩
      lost := by simp }
  · exact {
      most_eq := h.most_eq
      playing := by simp
      beaten := by simp
      lost := fun _ => ⟨hnone, hbelow⟩ }
  · exact {
      most_eq := h.most_eq
      playing := fun _ => ⟨by dsimp only; omega, by dsimp only; omega, hbelow⟩
      beaten := by simp [hphase]
      lost := by simp [hphase] }

theorem Judged.apply (h : s.Judged most) (hs : s.Sound) (action : Index) :
    (s.apply action).value.Judged most := by
  have hmoved := s.moved_apply action
  generalize s.apply action = spoken at hmoved ⊢
  cases hmoved with
  | begins hphase => exact h.beginBlind hs
  | plays hphase => exact h.play hphase
  | skips hphase hblind =>
    refine h.idle ?_ (Or.inl ?_) <;> rw [nextBlind_eq]
  | leaves hphase =>
    refine h.idle ?_ (Or.inl ?_) <;> rw [nextBlind_eq]
  | discards hphase hleft =>
    obtain ⟨cards, rng, discards, hdiscard⟩ := discard_elim s
    rw [hdiscard]
    exact { h with }
  | @toggles hphase place hplace =>
    obtain ⟨cards, htoggle⟩ := toggle_elim s place
    rw [htoggle]
    exact { h with }
  | cashes hphase => exact h.idle rfl (Or.inr (Or.inl rfl))
  | rerolls hphase hmoney => exact h.idle rfl (Or.inr (Or.inl hphase))
  | opens hphase hmoney => exact h.idle rfl (Or.inr (Or.inr rfl))
  | resolves hphase => exact h.idle rfl (Or.inr (Or.inl rfl))
  | again hphase => exact { h with }
  | exits hphase => exact { h with }
  | ignored hmeans => exact h

theorem Judged.next (h : s.Judged most) (hs : s.Sound) (action : Option Index) :
    (s.next action).Judged most := by
  rw [next_eq]
  unfold act
  split
  · exact h.apply hs _
  · exact h

theorem Judged.after (h : s.Judged most) (hs : s.Reached) (actions : List (Option Index)) :
    (s.after actions).Judged most := by
  induction actions generalizing s with
  | nil => exact h
  | cons action actions ih => exact ih (h.next hs.sound action) (hs.next action)

/-! ## One action -/

/-- What an action may do: how the phases follow one another, and what happens to hands, chips and
score. -/
structure Lawful (s : Sandbox) (action : Option Index) (s' : Sandbox) : Prop where
  entered : s'.phase = .playing → s.phase = .playing ∨ s.Selects action
  beaten : s'.phase = .roundEnd → s.phase = .roundEnd ∨ s.Plays action
  lost : s'.phase = .gameOver → s.phase = .gameOver ∨ s.Plays action
  shopped : s'.phase = .shop →
    s.phase = .shop ∨ s.phase = .roundEnd ∨ s.phase = .shopPackSelection
  /-- A hand adds the same to chips and score. -/
  played : s.Plays action → s'.hands + 1 = s.hands ∧ ∃ gained, 1 ≤ gained ∧ gained ≤ 275 ∧
    s'.chips = s.chips + gained ∧ s'.score = s.score + gained
  selected : s.Selects action → s'.phase = .playing ∧ s'.hands = handsPerBlind s.deck
  score : ¬ s.Plays action → s'.score = s.score
  hands : ¬ s.Plays action → ¬ s.Selects action → s'.hands = s.hands

theorem Lawful.score_le {s' : Sandbox} {action : Option Index} (h : s.Lawful action s') :
    s.score ≤ s'.score := by
  by_cases hplays : s.Plays action
  · obtain ⟨-, gained, hpos, -, -, hscore⟩ := h.played hplays
    omega
  · exact (h.score hplays).ge

/-- What neither selects nor plays leaves the hands and the score, and enters no phase of a blind.
-/
theorem lawful_of_idle {s' : Sandbox} {action : Option Index} (hselects : ¬ s.Selects action)
    (hplays : ¬ s.Plays action) (hscore : s'.score = s.score) (hhands : s'.hands = s.hands)
    (hphase : s'.phase = s.phase ∨ s'.phase = .blindSelect ∨ s'.phase = .shopPackSelection ∨
      s'.phase = .shop ∧ (s.phase = .roundEnd ∨ s.phase = .shopPackSelection)) :
    s.Lawful action s' where
  entered := fun h => by rcases hphase with hphase | hphase | hphase | ⟨hphase, -⟩ <;> simp_all
  beaten := fun h => by rcases hphase with hphase | hphase | hphase | ⟨hphase, -⟩ <;> simp_all
  lost := fun h => by rcases hphase with hphase | hphase | hphase | ⟨hphase, -⟩ <;> simp_all
  shopped := fun h => by
    rcases hphase with hphase | hphase | hphase | ⟨-, hshop⟩
    · exact Or.inl (hphase ▸ h)
    · rw [hphase] at h
      cases h
    · rw [hphase] at h
      cases h
    · exact Or.inr hshop
  played := fun h => absurd h hplays
  selected := fun h => absurd h hselects
  score := fun _ => hscore
  hands := fun _ _ => hhands

theorem lawful_beginBlind (hphase : s.phase = .blindSelect) :
    s.Lawful (some 1) s.beginBlind.value := by
  have hselects : s.Selects (some 1) := ⟨hphase, rfl⟩
  have hplays : ¬ s.Plays (some 1) := by simp [Plays]
  rw [value_beginBlind]
  generalize deal handSize s.rng = dealt
  exact {
    entered := fun _ => Or.inr hselects
    beaten := by simp
    lost := by simp
    shopped := by simp
    played := fun h => absurd h hplays
    selected := fun _ => ⟨rfl, rfl⟩
    score := fun _ => rfl
    hands := fun _ h => absurd hselects h }

theorem lawful_play (hs : s.Sound) (hphase : s.phase = .playing) :
    s.Lawful (some 0) s.play.value := by
  have hplays : s.Plays (some 0) := ⟨hphase, rfl⟩
  obtain ⟨hhands, -, hlength, hrange⟩ := hs.playing hphase
  have hcards : s.cards ≠ [] := List.ne_nil_of_length_pos (hlength ▸ Nat.succ_pos 7)
  have hpos := points_pos (inRange_pickFirst hrange) (pickedCount_pickFirst_pos hcards)
  have hle := (points_le (inRange_pickFirst hrange) (pickedCount_pickFirst hs.picked_le)).2
  obtain ⟨phase, hplay, hends⟩ := play_elim s
  have hshop : phase ≠ .shop := by
    rcases hends with ⟨rfl, -⟩ | ⟨-, ⟨rfl, -⟩ | ⟨rfl, -⟩⟩ <;> simp [hphase]
  rw [hplay]
  exact {
    entered := fun _ => Or.inl hphase
    beaten := fun _ => Or.inr hplays
    lost := fun _ => Or.inr hplays
    shopped := fun h => absurd h hshop
    played := fun _ => ⟨Nat.sub_add_cancel hhands, _, hpos, hle, rfl, rfl⟩
    selected := by simp [Selects]
    score := fun h => absurd hplays h
    hands := fun h => absurd hplays h }

theorem lawful_apply (hs : s.Sound) (action : Index) :
    s.Lawful (some action) (s.apply action).value := by
  have hmoved := s.moved_apply action
  generalize s.apply action = spoken at hmoved ⊢
  cases hmoved with
  | begins hphase => exact lawful_beginBlind hphase
  | plays hphase => exact lawful_play hs hphase
  | skips hphase hblind =>
    refine lawful_of_idle (by simp [Selects]) (by simp [Plays]) ?_ ?_ (Or.inr (Or.inl ?_)) <;>
      rw [nextBlind_eq]
  | leaves hphase =>
    refine lawful_of_idle (by simp [Selects]) (by simp [Plays, hphase]) ?_ ?_
        (Or.inr (Or.inl ?_)) <;>
      rw [nextBlind_eq]
  | discards hphase hleft =>
    obtain ⟨cards, rng, discards, hdiscard⟩ := discard_elim s
    rw [hdiscard]
    exact lawful_of_idle (by simp [Selects, hphase]) (by simp [Plays]) rfl rfl (Or.inl rfl)
  | @toggles hphase place hplace =>
    obtain ⟨cards, htoggle⟩ := toggle_elim s place
    rw [htoggle]
    exact lawful_of_idle (by simp [Selects, hphase]) (by simp [Plays]) rfl rfl (Or.inl rfl)
  | cashes hphase =>
    exact lawful_of_idle (by simp [Selects]) (by simp [Plays, hphase]) rfl rfl
      (Or.inr (Or.inr (Or.inr ⟨rfl, Or.inl hphase⟩)))
  | rerolls hphase hmoney =>
    exact lawful_of_idle (by simp [Selects, hphase]) (by simp [Plays]) rfl rfl (Or.inl rfl)
  | opens hphase hmoney =>
    exact lawful_of_idle (by simp [Selects]) (by simp [Plays]) rfl rfl
      (Or.inr (Or.inr (Or.inl rfl)))
  | resolves hphase =>
    exact lawful_of_idle (by simp [Selects, hphase]) (by simp [Plays, hphase]) rfl rfl
      (Or.inr (Or.inr (Or.inr ⟨rfl, Or.inr hphase⟩)))
  | again hphase =>
    exact lawful_of_idle (by simp [Selects, hphase]) (by simp [Plays]) rfl rfl (Or.inl rfl)
  | exits hphase =>
    exact lawful_of_idle (by simp [Selects]) (by simp [Plays]) rfl rfl (Or.inl rfl)
  | ignored hmeans =>
    refine lawful_of_idle ?_ ?_ rfl rfl (Or.inl rfl)
    · rintro ⟨hphase, haction⟩
      simp_all [Means]
    · rintro ⟨hphase, haction⟩
      simp_all [Means]

/-- An action that is not taken up changes nothing; where a blind can be selected or a hand played,
every action is. -/
theorem Reached.lawful (h : s.Reached) (action : Option Index) :
    s.Lawful action (s.next action) := by
  have hidle (hkept : action = none ∨ s.phase = .gameOver) : s.Lawful action s := by
    refine lawful_of_idle ?_ ?_ rfl rfl (Or.inl rfl)
    · rintro ⟨hphase, haction⟩
      rcases hkept with hnone | hover <;> simp_all
    · rintro ⟨hphase, haction⟩
      rcases hkept with hnone | hover <;> simp_all
  rw [next_eq]
  cases action with
  | none => exact hidle (Or.inl rfl)
  | some action =>
    by_cases hopen : s.outcome = none
    · rw [act_of_open hopen]
      exact lawful_apply h.sound action
    · rw [act_of_over hopen]
      exact hidle (Or.inr (h.phase_of_over hopen))

/-! ## Rows of actions, in sum -/

theorem Reached.score_after_le (h : s.Reached) (actions : List (Option Index)) :
    s.score ≤ (s.after actions).score := by
  induction actions generalizing s with
  | nil => exact le_rfl
  | cons action actions ih => exact (h.lawful action).score_le.trans (ih (h.next action))

/-- As long as no blind is selected, every hand that is played is taken from those left. -/
theorem Reached.hands_after (h : s.Reached) {actions : List (Option Index)}
    (hnone : tally Selects s actions = 0) :
    tally Plays s actions + (s.after actions).hands = s.hands := by
  induction actions generalizing s with
  | nil => exact Nat.zero_add _
  | cons action actions ih =>
    have hlawful := h.lawful action
    simp only [tally, Nat.add_eq_zero_iff, ite_eq_right_iff, Nat.one_ne_zero, imp_false] at hnone
    obtain ⟨hselects, hlater⟩ := hnone
    have hrest := ih (h.next action) hlater
    have hafter : s.after (action :: actions) = (s.next action).after actions := rfl
    rw [tally, hafter]
    split
    · rename_i hplays
      have hhand := (hlawful.played hplays).1
      omega
    · rename_i hplays
      have hkept := hlawful.hands hplays hselects
      omega

theorem handsPerBlind_eq (deck : Deck) : handsPerBlind deck = if deck = .blue then 5 else 4 := by
  cases deck <;> rfl

/-- However a run goes, a blind is left only by the hand that reaches its target or is its last one.
From the action that selects a blind until the next one is selected, the hands left and the hands
played are those of a blind. -/
theorem blind_left_by_its_hands (seed : UInt64) (deck : Deck) (stake : Stake)
    (actions : List (Option Index)) :
    let most := if deck = .blue then 5 else 4
    let s := (opening seed deck stake).after actions
    s.Judged most ∧ (∀ action, s.Lawful action (s.next action)) ∧
      (∀ later, s.score ≤ (s.after later).score) ∧
      ∀ action later, s.Selects action → tally Selects (s.next action) later = 0 →
        tally Plays s (action :: later) + (s.after (action :: later)).hands = most := by
  intro most s
  have hopening : (opening seed deck stake).Reached := reached_launched seed deck stake
  have hreached : s.Reached := hopening.after actions
  have hjudged : s.Judged most := by
    have hstands := (judged_opening seed deck stake).after hopening actions
    rwa [handsPerBlind_eq] at hstands
  refine ⟨hjudged, hreached.lawful, hreached.score_after_le, fun action later hselects hnone => ?_⟩
  have hplays : ¬ s.Plays action := fun hplays => by cases hselects.1.symm.trans hplays.1
  have hrest := (hreached.next action).hands_after hnone
  have hfull := ((hreached.lawful action).selected hselects).2
  rw [hjudged.most_eq] at hfull
  rw [tally, if_neg hplays, Nat.zero_add, ← hfull]
  exact hrest

/-- The first blind, left with two of the four hands. -/
theorem blind_left_by_its_hands_of_two_hands :
    let s := opening 4 .red .white
    let later : List (Option Index) := [9, 7, 2, 5, 8, 0, 8, 3, 9, 2, 4, 0].map some
    let left := s.after (some 1 :: later)
    s.Selects (some 1) ∧ tally Plays s (some 1 :: later) = 2 ∧ left.phase = .roundEnd ∧
      left.target ≤ left.chips ∧ left.hands = 2 := by
  intro s later left
  obtain ⟨-, -, -, hspent⟩ := blind_left_by_its_hands 4 .red .white []
  obtain ⟨hleft, -⟩ := blind_left_by_its_hands 4 .red .white (some 1 :: later)
  have hselects : s.Selects (some 1) := ⟨rfl, rfl⟩
  have hplayed : tally Plays s (some 1 :: later) = 2 := by decide +kernel
  have hphase : left.phase = .roundEnd := by decide +kernel
  have hsum : tally Plays s (some 1 :: later) + left.hands = 4 :=
    hspent (some 1) later hselects (by decide +kernel)
  exact ⟨hselects, hplayed, hphase, (hleft.beaten hphase).1, by omega⟩

end Sandbox
end BlindArena
