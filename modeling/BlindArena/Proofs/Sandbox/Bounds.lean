import BlindArena.Proofs.Sandbox.Cards
import BlindArena.Proofs.Sandbox.Moves

/-!
# The sandbox stays small

A hand is worth at most 275 points and a blind has at most five hands, so no blind yields more than
1375. The boss of ante 3 asks for at least 1800 and cannot be skipped: no run comes past it. Hence
ante, money, chips and score are bounded however long the sandbox is driven.
-/

namespace BlindArena

/-- The place of a blind within its ante. -/
def Blind.place : Blind → Nat
  | small => 0
  | big => 1
  | boss => 2

namespace Sandbox

/-- The most a blind can yield. -/
def mostChips : Int := 1375

/-- The boss of ante 3 asks for more than a blind can yield. -/
theorem mostChips_lt_target {s : Sandbox} (hante : s.ante = 3) (hblind : s.blind = .boss) :
    mostChips < s.target := by
  simp only [target, baseTarget, Blind.multiplier, mostChips, hante, hblind]
  omega

theorem target_pos {s : Sandbox} (h : 1 ≤ s.ante) : 0 < s.target := by
  have hbase : 0 < baseTarget * s.ante * s.blind.multiplier / 2 := by
    cases s.blind <;> simp only [baseTarget, Blind.multiplier] <;> omega
  simp only [target]
  generalize baseTarget * s.ante * s.blind.multiplier / 2 = base at hbase
  cases s.stake <;> simp only [Stake.level] <;> omega

/-! ## Soundness -/

/-- How many blinds of the run lie behind. -/
def round (s : Sandbox) : Nat := 3 * (s.ante - 1) + s.blind.place

/-- In the shop the present blind is beaten and cashed out. -/
def inShop (s : Sandbox) : Prop := s.phase = .shop ∨ s.phase = .shopPackSelection

instance (s : Sandbox) : Decidable s.inShop := inferInstanceAs (Decidable (_ ∨ _))

/-- How often the run can have been cashed out. -/
def cashed (s : Sandbox) : Nat := if s.inShop then s.round + 1 else s.round

/-- What the present blind has added to the score. -/
def yielded (s : Sandbox) : Int := if s.phase = .blindSelect then 0 else s.chips

/-- What holds however the sandbox is driven. The hands left bound what the blind can still yield,
and the blinds behind bound the score and the money. -/
structure Sound (s : Sandbox) : Prop where
  ante_pos : 1 ≤ s.ante
  ante_le : s.ante ≤ 3
  money_nonneg : 0 ≤ s.money
  money_le : s.money ≤ 14 + 9 * s.cashed
  chips_nonneg : 0 ≤ s.chips
  chips_le : s.chips ≤ mostChips
  chips_le_score : s.chips ≤ s.score
  score_le : s.score ≤ mostChips * s.round + s.yielded
  hands_le : s.hands ≤ 5
  discards_le : s.discards ≤ 4
  picked_le : pickedCount s.cards ≤ maxPicked
  /-- Something is left to play with. -/
  playing : s.phase = .playing → 1 ≤ s.hands ∧ s.chips + mostPoints * s.hands ≤ mostChips ∧
    s.cards.length = handSize ∧ InRange s.cards
  /-- A hand was played to beat the blind. -/
  beaten : s.phase = .roundEnd → s.hands ≤ 4
  /-- The last boss is never beaten. -/
  round_le : s.phase = .roundEnd ∨ s.inShop → s.round ≤ 7

/-- The bounds that soundness comes to. Every card carries its own mark. -/
structure Bounded (s : Sandbox) : Prop where
  ante : 1 ≤ s.ante ∧ s.ante ≤ 3
  money : 0 ≤ s.money ∧ s.money ≤ 86
  chips : 0 ≤ s.chips ∧ s.chips ≤ 1375
  score : s.chips ≤ s.score ∧ s.score ≤ 12375
  picked : pickedCount s.cards ≤ 5
  playing : s.phase = .playing →
    1 ≤ s.hands ∧ s.hands ≤ 5 ∧ s.cards.length = 8 ∧ InRange s.cards

variable {s : Sandbox}

theorem Sound.round_le_eight (h : s.Sound) : s.round ≤ 8 := by
  have hante := h.ante_le
  have hplace : s.blind.place ≤ 2 := by cases s.blind <;> simp [Blind.place]
  simp only [round]
  omega

theorem Sound.cashed_le (h : s.Sound) : s.cashed ≤ 8 := by
  have hround := h.round_le_eight
  unfold cashed
  split
  · rename_i hshop
    have := h.round_le (Or.inr hshop)
    omega
  · exact hround

theorem Sound.yielded_le (h : s.Sound) : s.yielded ≤ mostChips := by
  have hchips := h.chips_le
  unfold yielded
  split
  · simp [mostChips]
  · exact hchips

theorem Sound.bounded (h : s.Sound) : s.Bounded where
  ante := ⟨h.ante_pos, h.ante_le⟩
  money := by
    have hmoney := h.money_le
    have hcashed := h.cashed_le
    exact ⟨h.money_nonneg, by omega⟩
  chips := ⟨h.chips_nonneg, h.chips_le⟩
  score := by
    have hround := h.round_le_eight
    have hyielded := h.yielded_le
    have hscore := h.score_le
    simp only [mostChips] at hscore hyielded
    exact ⟨h.chips_le_score, by omega⟩
  picked := h.picked_le
  playing := fun hphase => by
    obtain ⟨hhands, -, hlength, hrange⟩ := h.playing hphase
    exact ⟨hhands, h.hands_le, hlength, hrange⟩

/-! ## Moves -/

/-- Outside the shop the present blind has not paid yet. -/
theorem Sound.money_le_round (h : s.Sound) (hshop : ¬ s.inShop) :
    s.money ≤ 14 + 9 * s.round := by
  simpa [cashed, hshop] using h.money_le

/-- Once a blind has begun, its chips are the last part of the score. -/
theorem Sound.score_le_chips (h : s.Sound) (hphase : s.phase ≠ .blindSelect) :
    s.score ≤ mostChips * s.round + s.chips := by
  simpa [yielded, hphase] using h.score_le

theorem sound_resetRun (hhands : s.hands ≤ 5) (hdiscards : s.discards ≤ 4)
    (hpicked : pickedCount s.cards ≤ maxPicked) : s.resetRun.Sound where
  ante_pos := by simp [resetRun]
  ante_le := by simp [resetRun]
  money_nonneg := by cases h : s.deck <;> simp [resetRun, startMoney, h]
  money_le := by
    cases h : s.deck <;> simp [resetRun, startMoney, h, cashed, inShop, round, Blind.place]
  chips_nonneg := by simp [resetRun]
  chips_le := by simp [resetRun, mostChips]
  chips_le_score := by simp [resetRun]
  score_le := by simp [resetRun, round, yielded, Blind.place]
  hands_le := hhands
  discards_le := hdiscards
  picked_le := hpicked
  playing := by simp [resetRun]
  beaten := by simp [resetRun]
  round_le := by simp [resetRun, inShop]

theorem sound_fresh (seed : UInt64) : (fresh seed).Sound :=
  sound_resetRun (by simp) (by simp) (by simp [pickedCount])

theorem Sound.start (h : s.Sound) : s.resetRun.Sound :=
  sound_resetRun h.hands_le h.discards_le h.picked_le

/-- Deck and stake count only when a run or a blind begins. -/
theorem Sound.configure (h : s.Sound) (deck : Deck) (stake : Stake) :
    (s.configure deck stake).Sound := { h with }

theorem Sound.finish (h : s.Sound) (restart : Bool) : (s.finish restart).Sound := { h with }

theorem handsPerBlind_range (deck : Deck) : 1 ≤ handsPerBlind deck ∧ handsPerBlind deck ≤ 5 := by
  unfold handsPerBlind
  split <;> simp

theorem discardsPerBlind_le (deck : Deck) : discardsPerBlind deck ≤ 4 := by
  unfold discardsPerBlind
  split <;> simp

theorem Sound.beginBlind (h : s.Sound) (hphase : s.phase = .blindSelect) :
    s.beginBlind.value.Sound := by
  obtain ⟨hpos, hhands⟩ := handsPerBlind_range s.deck
  have hlength := length_deal handSize s.rng
  have hrange := inRange_deal handSize s.rng
  have hpicked := pickedCount_deal handSize s.rng
  rw [value_beginBlind]
  generalize deal handSize s.rng = dealt at *
  exact {
    ante_pos := h.ante_pos
    ante_le := h.ante_le
    money_nonneg := h.money_nonneg
    money_le := by simpa [cashed, inShop, round, hphase] using h.money_le
    chips_nonneg := le_rfl
    chips_le := by simp [mostChips]
    chips_le_score := h.chips_nonneg.trans h.chips_le_score
    score_le := by simpa [yielded, round, hphase] using h.score_le
    hands_le := hhands
    discards_le := discardsPerBlind_le s.deck
    picked_le := hpicked.trans_le (Nat.zero_le _)
    playing := fun _ => ⟨hpos, by simp only [mostPoints, mostChips]; omega, hlength, hrange⟩
    beaten := by simp
    round_le := by simp [inShop] }

theorem round_nextBlind (hante : 1 ≤ s.ante) : s.nextBlind.round = s.round + 1 := by
  unfold nextBlind
  cases hblind : s.blind with
  | small => simp [round, Blind.place, hblind]
  | big => simp [round, Blind.place, hblind]
  | boss =>
    simp only [round, Blind.place, hblind]
    omega

theorem ante_nextBlind_pos (hante : 1 ≤ s.ante) : 1 ≤ s.nextBlind.ante := by
  unfold nextBlind
  cases s.blind with
  | small => exact hante
  | big => exact hante
  | boss => exact Nat.le_add_left 1 _

/-- The next blind comes after a shop, or after a small or big blind that is skipped. -/
theorem Sound.nextBlind (h : s.Sound)
    (hphase : s.phase = .blindSelect ∧ s.blind ≠ .boss ∨ s.inShop) : s.nextBlind.Sound := by
  have hround_le : s.round ≤ 7 := by
    rcases hphase with ⟨-, hblind⟩ | hshop
    · have := h.ante_le
      cases hplace : s.blind with
      | small => simp only [round, Blind.place, hplace]; omega
      | big => simp only [round, Blind.place, hplace]; omega
      | boss => exact absurd hplace hblind
    · exact h.round_le (Or.inr hshop)
  have hround := round_nextBlind h.ante_pos
  have hpos := ante_nextBlind_pos h.ante_pos
  have hcashed : s.cashed ≤ s.round + 1 := by
    unfold cashed
    split <;> omega
  have hyielded := h.yielded_le
  have hmoney := h.money_le
  have hscore := h.score_le
  rw [nextBlind_eq] at hround ⊢
  generalize s.nextBlind.blind = blind at *
  generalize s.nextBlind.ante = ante at *
  exact {
    ante_pos := hpos
    ante_le := by
      simp only [round] at hround hround_le ⊢
      omega
    money_nonneg := h.money_nonneg
    -- one more blind lies behind, and out of the shop it is no longer counted twice
    money_le := by
      simp only [cashed, inShop, hround]
      simp
      omega
    chips_nonneg := h.chips_nonneg
    chips_le := h.chips_le
    chips_le_score := h.chips_le_score
    score_le := by
      simp only [hround, yielded, if_true]
      push_cast
      linarith
    hands_le := h.hands_le
    discards_le := h.discards_le
    picked_le := h.picked_le
    playing := by simp
    beaten := by simp
    round_le := by simp [inShop] }

/-- Only the boss of ante 3 has eight blinds behind it. -/
theorem Sound.round_le_of_target_le (h : s.Sound) (htarget : s.target ≤ mostChips) :
    s.round ≤ 7 := by
  have hante := h.ante_le
  by_contra hlast
  have hblind : s.blind = .boss := by
    cases hplace : s.blind with
    | small => simp only [round, Blind.place, hplace] at hlast; omega
    | big => simp only [round, Blind.place, hplace] at hlast; omega
    | boss => rfl
  have hante_eq : s.ante = 3 := by
    simp only [round, Blind.place, hblind] at hlast
    omega
  have := mostChips_lt_target hante_eq hblind
  omega

/-- A hand is taken from the hands left and adds to the chips; a blind goes on only with hands left,
and is beaten only below the last boss. -/
theorem Sound.hand (h : s.Sound) (hplaying : s.phase = .playing) {gained : Int} {cards : List Card}
    {rng : Generator} {phase : Phase} (hgained : 0 ≤ gained) (hgained_le : gained ≤ mostPoints)
    (hlength : cards.length = handSize) (hrange : InRange cards) (hpicked : pickedCount cards = 0)
    (hphase : phase = .roundEnd ∧ s.round ≤ 7 ∨ phase = .gameOver ∨
      phase = .playing ∧ s.hands - 1 ≠ 0) :
    Sound { s with
      chips := s.chips + gained
      score := s.score + gained
      hands := s.hands - 1
      cards := cards
      rng := rng
      phase := phase } := by
  obtain ⟨hhands, hchips, -, -⟩ := h.playing hplaying
  simp only [mostPoints] at hchips hgained_le
  have hhands_le := h.hands_le
  have hchips_nonneg := h.chips_nonneg
  have hchips_le_score := h.chips_le_score
  have hmoney := h.money_le_round (by simp [inShop, hplaying])
  have hscore := h.score_le_chips (by simp [hplaying])
  have hshop : phase ≠ .shop ∧ phase ≠ .shopPackSelection ∧ phase ≠ .blindSelect := by
    rcases hphase with ⟨rfl, -⟩ | rfl | ⟨rfl, -⟩ <;> simp
  exact {
    ante_pos := h.ante_pos
    ante_le := h.ante_le
    money_nonneg := h.money_nonneg
    money_le := by simpa [cashed, inShop, hshop, round] using hmoney
    chips_nonneg := by dsimp only; omega
    chips_le := by dsimp only; omega
    chips_le_score := by dsimp only; omega
    score_le := by
      simp only [yielded, hshop, if_false]
      exact (Int.add_le_add_right hscore gained).trans_eq (Int.add_assoc ..)
    hands_le := by dsimp only; omega
    discards_le := h.discards_le
    picked_le := hpicked.trans_le (Nat.zero_le _)
    -- the blind only goes on with a hand left, so the chips still have room for it
    playing := fun hgoes => by
      have hleft : s.hands - 1 ≠ 0 := by
        rcases hphase with ⟨rfl, -⟩ | rfl | ⟨-, hleft⟩
        · cases hgoes
        · cases hgoes
        · exact hleft
      refine ⟨?_, ?_, hlength, hrange⟩
      · dsimp only
        omega
      · simp only [mostPoints]
        omega
    beaten := fun _ => by dsimp only; omega
    round_le := fun hbeaten => by
      rcases hphase with ⟨-, hround⟩ | rfl | ⟨rfl, -⟩
      · exact hround
      · simp [inShop] at hbeaten
      · simp [inShop] at hbeaten }

theorem Sound.play (h : s.Sound) (hphase : s.phase = .playing) : s.play.value.Sound := by
  obtain ⟨-, -, hlength, hrange⟩ := h.playing hphase
  obtain ⟨hgained, hgained_le⟩ :=
    points_le (inRange_pickFirst hrange) (pickedCount_pickFirst h.picked_le)
  obtain ⟨phase, hplay, hends⟩ := play_elim s
  rw [hplay]
  refine h.hand hphase hgained hgained_le (by simpa using hlength)
    (inRange_redraw (inRange_pickFirst hrange) s.rng) (pickedCount_redraw _ _) ?_
  rcases hends with ⟨hend, htarget⟩ | ⟨-, ⟨hend, -⟩ | ⟨hgoes, hleft⟩⟩
  · refine Or.inl ⟨hend, h.round_le_of_target_le (htarget.trans ?_)⟩
    obtain ⟨hhands, hchips, -, -⟩ := h.playing hphase
    simp only [mostPoints] at hchips hgained_le
    omega
  · exact Or.inr (Or.inl hend)
  · exact Or.inr (Or.inr ⟨hgoes.trans hphase, hleft⟩)

/-- Cards may change as long as they stay what they are. -/
theorem Sound.recard (h : s.Sound) {cards : List Card} {rng : Generator} {discards : Nat}
    (hlength : cards.length = s.cards.length) (hrange : InRange s.cards → InRange cards)
    (hpicked : pickedCount cards ≤ maxPicked) (hdiscards : discards ≤ s.discards) :
    Sound { s with cards := cards, rng := rng, discards := discards } :=
  { h with
    discards_le := hdiscards.trans h.discards_le
    picked_le := hpicked
    playing := fun hphase => by
      obtain ⟨hhands, hchips, hcards, hin⟩ := h.playing hphase
      exact ⟨hhands, hchips, hlength.trans hcards, hrange hin⟩ }

theorem Sound.discard (h : s.Sound) : s.discard.Sound := by
  have hlength := length_redraw s.cards s.rng
  have hrange : InRange s.cards → InRange (redraw s.cards s.rng).1 :=
    fun hin => inRange_redraw hin s.rng
  have hpicked := pickedCount_redraw s.cards s.rng
  unfold Sandbox.discard
  generalize redraw s.cards s.rng = drawn at *
  split
  · exact h.recard hlength hrange (hpicked.trans_le (Nat.zero_le _)) (Nat.sub_le _ _)
  · exact h

theorem Sound.toggle (h : s.Sound) (place : Nat) : (s.toggle place).Sound := by
  unfold Sandbox.toggle
  split
  · rename_i card hcard
    split
    · rename_i hmay
      exact h.recard (List.length_set ..) (fun hin => inRange_toggle hin hcard)
        (pickedCount_toggle hcard hmay h.picked_le) le_rfl
    · exact h
  · exact h

theorem Blind.payout_range (blind : Blind) : 3 ≤ blind.payout ∧ blind.payout ≤ 5 := by
  cases blind <;> simp [Blind.payout]

/-- Cashing out gives at most nine: five for the blind and four for hands left. -/
theorem Sound.cashOut (h : s.Sound) (hphase : s.phase = .roundEnd) : s.cashOut.value.Sound := by
  obtain ⟨hpayout, hpayout_le⟩ := Blind.payout_range s.blind
  have hhands := h.beaten hphase
  have hround := h.round_le (Or.inl hphase)
  have hmoney_nonneg := h.money_nonneg
  have hmoney := h.money_le_round (by simp [inShop, hphase])
  have hscore := h.score_le_chips (by simp [hphase])
  exact { h with
    money_nonneg := by simp only [Sandbox.cashOut]; omega
    money_le := by
      simp only [Sandbox.cashOut, cashed, inShop, round] at hmoney ⊢
      simp
      omega
    score_le := by simpa [Sandbox.cashOut, yielded, round] using hscore
    playing := by simp [Sandbox.cashOut]
    beaten := by simp [Sandbox.cashOut]
    round_le := fun _ => hround }

/-- In the shop money can only be spent. -/
theorem Sound.spend (h : s.Sound) (hshop : s.inShop) {money : Int} {phase : Phase}
    (hmoney : 0 ≤ money) (hmoney_le : money ≤ s.money)
    (hphase : phase = .shop ∨ phase = .shopPackSelection) :
    Sound { s with money := money, phase := phase } := by
  have hcashed : s.money ≤ 14 + 9 * (s.round + 1) := by simpa [cashed, hshop] using h.money_le
  have hscore := h.score_le_chips (by rcases hshop with hshop | hshop <;> simp [hshop])
  have hplays : phase ≠ .playing ∧ phase ≠ .roundEnd ∧ phase ≠ .blindSelect := by
    rcases hphase with rfl | rfl <;> simp
  exact { h with
    money_nonneg := hmoney
    money_le := by
      simp only [cashed, inShop, hphase, if_true]
      exact (hmoney_le.trans hcashed).trans_eq (by simp [round])
    score_le := by simpa [yielded, hplays, round] using hscore
    playing := by simp [hplays]
    beaten := by simp [hplays]
    round_le := fun _ => h.round_le (Or.inr hshop) }

/-- No action breaks soundness. -/
theorem Sound.apply (h : s.Sound) (action : Index) : (s.apply action).value.Sound := by
  have hmoved := s.moved_apply action
  have hmoney := h.money_nonneg
  generalize s.apply action = spoken at hmoved ⊢
  cases hmoved with
  | begins hphase => exact h.beginBlind hphase
  | skips hphase hblind => exact h.nextBlind (Or.inl ⟨hphase, hblind⟩)
  | plays hphase => exact h.play hphase
  | discards hphase hleft => exact h.discard
  | toggles hphase hplace => exact h.toggle _
  | cashes hphase => exact h.cashOut hphase
  | leaves hphase => exact h.nextBlind (Or.inr (Or.inl hphase))
  | rerolls hphase hreroll =>
    simp only [rerollCost] at hreroll ⊢
    exact h.spend (Or.inl hphase) (by omega) (by omega) (Or.inl hphase)
  | opens hphase hpack =>
    simp only [packCost] at hpack ⊢
    exact h.spend (Or.inl hphase) (by omega) (by omega) (Or.inr rfl)
  | resolves hphase => exact h.spend (Or.inr hphase) hmoney le_rfl (Or.inl rfl)
  | again hphase => exact h.finish true
  | exits hphase => exact h.finish false
  | ignored hmeans => exact h

theorem Sound.act (h : s.Sound) (action : Option Index) : (s.act action).value.Sound := by
  unfold Sandbox.act
  split
  · exact h.apply _
  · exact h

/-! ## Runs -/

/-- What can be asked of a sandbox. -/
inductive Call where
  | configure (deck : Deck) (stake : Stake)
  | start
  | step (action : Option Index)

def Call.perform (s : Sandbox) : Call → Sandbox
  | configure deck stake => (engine.configure s deck stake).value
  | start => (engine.start s).value.2
  | step action => (engine.step s action).value.2

def run (s : Sandbox) (calls : List Call) : Sandbox := calls.foldl Call.perform s

theorem Sound.perform (h : s.Sound) (call : Call) : (call.perform s).Sound := by
  cases call with
  | configure deck stake => exact h.configure deck stake
  | start => exact h.start
  | step action => exact h.act action

theorem Sound.run (h : s.Sound) (calls : List Call) : (s.run calls).Sound := by
  induction calls generalizing s with
  | nil => exact h
  | cons call calls ih => exact ih (h.perform call)

end Sandbox
end BlindArena
