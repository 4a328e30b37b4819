import BlindArena.Proofs.Sandbox.Bounds

/-!
# The sandbox in machine words

The calls of the sandbox once more, as a machine with words of fixed width makes them: every sum and
every product must fit in an amount, every count must stay between zero and 32 bits, and every place
must hold a card. In a sound sandbox no check fails, and the machine does the same.
-/

namespace BlindArena

/-- What a machine stops at. -/
inductive Fault where
  | amount | count | place
  deriving DecidableEq

namespace Sandbox
namespace Machine

/-! ## Checks -/

def amount (x : Int) : Except Fault Int := if Amount.Fits x then .ok x else .error .amount

def count (x : Int) : Except Fault Nat :=
  if 0 ≤ x ∧ x < 0x100000000 then .ok x.toNat else .error .count

def cardAt (cards : List Card) (place : Nat) : Except Fault Card :=
  match cards[place]? with
  | some card => .ok card
  | none => .error .place

theorem amount_of_fits {x : Int} (h : Amount.Fits x) : amount x = pure x := if_pos h

/-- Nothing here comes near the limits of an amount. -/
theorem amount_of_small {x : Int} (h : -100000 ≤ x ∧ x ≤ 100000) : amount x = pure x :=
  amount_of_fits ⟨by omega, by omega⟩

theorem count_of_range {x : Int} (h : 0 ≤ x ∧ x < 0x100000000) : count x = pure x.toNat := if_pos h

/-! ## Moves -/

def target (s : Sandbox) : Except Fault Int := do
  let scaled ← amount (baseTarget * s.ante)
  let doubled ← amount (scaled * s.blind.multiplier)
  let base := doubled.tdiv 2
  let raised ← amount (base * s.stake.level)
  amount (base + raised.tdiv 10)

def points (played : List Int) : Except Fault Int := do
  let sum ← played.foldlM (fun sum value => amount (sum + value)) 0
  amount (sum * played.length)

def pickFirst (cards : List Card) : Except Fault (List Card) :=
  if pickedCount cards = 0 then do
    let card ← cardAt cards 0
    pure (cards.set 0 { card with picked := true })
  else pure cards

def beginBlind (s : Sandbox) : Except Fault (Spoken Sandbox) := do
  let (cards, rng) := deal handSize s.rng
  let s := { s with
    hands := handsPerBlind s.deck
    discards := discardsPerBlind s.deck
    chips := 0
    cards := cards
    rng := rng
    phase := .playing }
  let asked ← target s
  pure ⟨s, [.line ("blind " ++ s.blind.name ++ " ante " ++ toString s.ante ++ " target " ++
    toString asked)]⟩

def nextBlind (s : Sandbox) : Except Fault (Spoken Sandbox) :=
  match s.blind with
  | .small => pure ⟨{ s with blind := .big, phase := .blindSelect }, []⟩
  | .big => pure ⟨{ s with blind := .boss, phase := .blindSelect }, []⟩
  | .boss => do
    let ante ← count (s.ante + 1)
    pure ⟨{ s with blind := .small, ante := ante, phase := .blindSelect }, []⟩

def play (s : Sandbox) : Except Fault (Spoken Sandbox) := do
  let picked ← pickFirst s.cards
  let played := pickedValues picked
  let gained ← points played
  let chips ← amount (s.chips + gained)
  let score ← amount (s.score + gained)
  let hands ← count (s.hands - 1)
  let asked ← target s
  let (cards, rng) := redraw picked s.rng
  let s := { s with chips := chips, score := score, hands := hands, cards := cards, rng := rng }
  let said := "played " ++ Text.list toString played ++ " for " ++ toString gained ++ " ("
    ++ toString chips ++ "/" ++ toString asked ++ ")"
  pure (if asked ≤ chips then ⟨{ s with phase := .roundEnd }, [.line said]⟩
    else if hands = 0 then ⟨{ s with phase := .gameOver }, [.line said, .line "out of hands"]⟩
    else ⟨s, [.line said]⟩)

def discard (s : Sandbox) : Except Fault (Spoken Sandbox) :=
  if 0 < pickedCount s.cards then do
    let discards ← count (s.discards - 1)
    let (cards, rng) := redraw s.cards s.rng
    pure ⟨{ s with discards := discards, cards := cards, rng := rng }, []⟩
  else pure ⟨s, []⟩

def toggle (s : Sandbox) (place : Nat) : Except Fault (Spoken Sandbox) := do
  let card ← cardAt s.cards place
  pure ⟨if mayToggle s.cards card then
      { s with cards := s.cards.set place { card with picked := !card.picked } }
    else s, []⟩

def cashOut (s : Sandbox) : Except Fault (Spoken Sandbox) := do
  let payout ← amount (s.blind.payout + s.hands)
  let money ← amount (s.money + payout)
  pure ⟨{ s with money := money, phase := .shop }, [.line ("cashed out $" ++ toString payout)]⟩

def spend (s : Sandbox) (cost : Int) (phase : Phase) : Except Fault (Spoken Sandbox) := do
  let money ← amount (s.money - cost)
  pure ⟨{ s with money := money, phase := phase }, []⟩

def apply (s : Sandbox) (action : Index) : Except Fault (Spoken Sandbox) :=
  match s.phase with
  | .blindSelect =>
    if action = 1 then beginBlind s
    else if action = 2 ∧ s.blind ≠ .boss then nextBlind s
    else pure (s.ignored action)
  | .playing =>
    if action = 0 then play s
    else if action = 1 ∧ 0 < s.discards then discard s
    else if 2 ≤ action ∧ action < 2 + handSize then toggle s (action - 2)
    else pure (s.ignored action)
  | .roundEnd => if action = 0 then cashOut s else pure (s.ignored action)
  | .shop =>
    if action = 0 then nextBlind s
    else if action = 1 ∧ rerollCost ≤ s.money then spend s rerollCost .shop
    else if action = 2 ∧ packCost ≤ s.money then spend s packCost .shopPackSelection
    else pure (s.ignored action)
  | .shopPackSelection => pure ⟨{ s with phase := .shop }, []⟩
  | .gameOver =>
    if action = 1 then pure ⟨s.finish true, []⟩
    else if action = 4 then pure ⟨s.finish false, []⟩
    else pure (s.ignored action)

/-! ## Calls -/

/-- The cards that may be picked or put back, by the marks from a place on. -/
def toggles (all : List Card) : Nat → List Bool → Except Fault (List Choice)
  | _, [] => pure []
  | place, mark :: marks => do
    let offered ← toggles all (place + 1) marks
    if mark || pickedCount all < maxPicked then
      let card ← cardAt all place
      pure (⟨2 + place, "Toggle card " ++ toString place ++ " (" ++ toString card.value ++ ")"⟩
        :: offered)
    else pure offered

def choices (s : Sandbox) : Except Fault (List Choice) :=
  match s.phase with
  | .playing => do
    let cards ← toggles s.cards 0 (s.cards.map (·.picked))
    pure (⟨0, "Play selected"⟩ :: (if 0 < s.discards then [⟨1, "Discard selected"⟩] else [])
      ++ cards)
  | _ => pure s.choices

def decision (s : Sandbox) : Except Fault Report :=
  match s.outcome, s.phase with
  | some outcome, phase => pure (.ended (some phase) outcome.restart)
  | none, .shopPackSelection => pure (.progressed (some .shopPackSelection))
  | none, phase => do
    let offered ← choices s
    pure (.input phase offered)

def act (s : Sandbox) (action : Option Index) : Except Fault (Spoken Sandbox) :=
  match action, s.outcome with
  | some action, none => apply s action
  | _, _ => pure ⟨s, []⟩

def step (s : Sandbox) (action : Option Index) :
    Except Fault (Spoken (Except String Report × Sandbox)) := do
  let moved ← act s action
  let report ← decision moved.value
  pure ⟨(.ok report, moved.value), moved.output⟩

def perform (s : Sandbox) : Call → Except Fault Sandbox
  | .configure deck stake => pure (engine.configure s deck stake).value
  | .start => pure (engine.start s).value.2
  | .step action => do
    let stepped ← step s action
    pure stepped.value.2

def run (s : Sandbox) (calls : List Call) : Except Fault Sandbox := calls.foldlM perform s

/-! ## Agreement -/

variable {s : Sandbox}

theorem target_eq (hpos : 1 ≤ s.ante) (hle : s.ante ≤ 3) : target s = pure s.target := by
  have hdoubled : 0 ≤ baseTarget * s.ante * s.blind.multiplier ∧
      baseTarget * s.ante * s.blind.multiplier ≤ 3600 := by
    cases s.blind <;> simp only [baseTarget, Blind.multiplier] <;> omega
  have hraised : 0 ≤ baseTarget * s.ante * s.blind.multiplier / 2 * s.stake.level ∧
      baseTarget * s.ante * s.blind.multiplier / 2 * s.stake.level ≤ 12600 := by
    generalize baseTarget * s.ante * s.blind.multiplier = doubled at hdoubled
    cases s.stake <;> simp only [Stake.level] <;> omega
  have hscaled : -100000 ≤ baseTarget * s.ante ∧ baseTarget * s.ante ≤ 100000 := by
    simp only [baseTarget]
    omega
  have htdiv : (baseTarget * s.ante * s.blind.multiplier).tdiv 2 =
      baseTarget * s.ante * s.blind.multiplier / 2 := Int.tdiv_eq_ediv_of_nonneg hdoubled.1
  simp only [target, Sandbox.target, amount_of_small hscaled, pure_bind]
  generalize baseTarget * s.ante * s.blind.multiplier = doubled at *
  rw [amount_of_small (by omega), pure_bind, htdiv,
    amount_of_small (by omega), pure_bind,
    Int.tdiv_eq_ediv_of_nonneg hraised.1, amount_of_small (by omega)]

/-- Summing a hand from the left never leaves the amounts. -/
theorem foldlM_amount {values : List Int} (h : ∀ value ∈ values, 1 ≤ value ∧ value ≤ 11) {sum : Int}
    (hsum : 0 ≤ sum) (hle : sum + 11 * values.length ≤ 1000) :
    values.foldlM (fun sum value => amount (sum + value)) sum =
      pure (sum + values.foldr (· + ·) 0) := by
  induction values generalizing sum with
  | nil => simp
  | cons value values ih =>
    obtain ⟨⟨hpos, hvalue⟩, hvalues⟩ := List.forall_mem_cons.1 h
    simp only [List.length_cons, Nat.cast_add, Nat.cast_one] at hle
    rw [List.foldlM_cons, amount_of_small (by omega), pure_bind,
      ih hvalues (by omega) (by omega)]
    simp [add_assoc]

theorem points_eq {cards : List Card} (hrange : InRange cards)
    (hpicked : pickedCount cards ≤ maxPicked) :
    points (pickedValues cards) = pure (Sandbox.points (pickedValues cards)) := by
  have hvalues : ∀ value ∈ pickedValues cards, 1 ≤ value ∧ value ≤ 11 := by
    intro value hvalue
    obtain ⟨card, hcard, rfl⟩ := List.mem_map.1 hvalue
    exact hrange card (List.mem_filter.1 hcard).1
  have hlength : (pickedValues cards).length ≤ 5 := by simpa [maxPicked] using hpicked
  obtain ⟨hpoints, hpoints_le⟩ := points_le hrange hpicked
  simp only [mostPoints] at hpoints_le
  simp only [points]
  rw [foldlM_amount hvalues le_rfl (by omega), pure_bind, zero_add]
  simp only [Sandbox.points] at hpoints hpoints_le ⊢
  exact amount_of_small (by omega)

theorem pickFirst_eq {cards : List Card} (h : cards ≠ []) :
    pickFirst cards = pure (Sandbox.pickFirst cards) := by
  cases cards with
  | nil => exact absurd rfl h
  | cons card cards =>
    unfold pickFirst Sandbox.pickFirst
    split <;> rfl

theorem beginBlind_eq (h : s.Sound) : beginBlind s = pure s.beginBlind := by
  unfold beginBlind Sandbox.beginBlind
  generalize deal handSize s.rng = dealt
  dsimp only
  rw [target_eq (by exact h.ante_pos) (by exact h.ante_le), pure_bind]

theorem nextBlind_eq (h : s.Sound) : nextBlind s = pure ⟨s.nextBlind, []⟩ := by
  have hante := h.ante_le
  unfold nextBlind Sandbox.nextBlind
  cases s.blind with
  | small => rfl
  | big => rfl
  | boss =>
    dsimp only
    rw [count_of_range (by omega), pure_bind, show ((s.ante : Int) + 1).toNat = s.ante + 1 by omega]

theorem play_eq (h : s.Sound) (hphase : s.phase = .playing) : play s = pure s.play := by
  obtain ⟨hhands, hchips, hlength, hrange⟩ := h.playing hphase
  have hcards : s.cards ≠ [] := by
    rintro hnone
    simp [hnone, handSize] at hlength
  have hpicked := pickedCount_pickFirst h.picked_le
  obtain ⟨hgained, hgained_le⟩ := points_le (inRange_pickFirst hrange) hpicked
  obtain ⟨hscore, hscore_le⟩ := h.bounded.score
  obtain ⟨hchips_nonneg, hchips_le⟩ := h.bounded.chips
  have hhands_le := h.hands_le
  simp only [mostPoints] at hgained_le
  simp only [play]
  rw [pickFirst_eq hcards, pure_bind, points_eq (inRange_pickFirst hrange) hpicked, pure_bind]
  unfold Sandbox.play
  dsimp only
  generalize redraw (Sandbox.pickFirst s.cards) s.rng = drawn
  generalize Sandbox.points (pickedValues (Sandbox.pickFirst s.cards)) = gained at *
  rw [amount_of_small (by omega), pure_bind,
    amount_of_small (by omega), pure_bind,
    count_of_range (by omega), pure_bind, target_eq h.ante_pos h.ante_le, pure_bind,
    show ((s.hands : Int) - 1).toNat = s.hands - 1 by omega]
  rfl

theorem discard_eq (h : s.Sound) (hleft : 0 < s.discards) : discard s = pure ⟨s.discard, []⟩ := by
  have hdiscards := h.discards_le
  unfold discard Sandbox.discard
  generalize redraw s.cards s.rng = drawn
  split
  · rw [count_of_range (by omega), pure_bind,
      show ((s.discards : Int) - 1).toNat = s.discards - 1 by omega]
  · rfl

theorem toggle_eq {place : Nat} (hplace : place < s.cards.length) :
    toggle s place = pure ⟨s.toggle place, []⟩ := by
  simp only [toggle, cardAt, Sandbox.toggle, List.getElem?_eq_getElem hplace]
  rfl

theorem cashOut_eq (h : s.Sound) : cashOut s = pure s.cashOut := by
  obtain ⟨hpayout, hpayout_le⟩ := Blind.payout_range s.blind
  obtain ⟨hmoney, hmoney_le⟩ := h.bounded.money
  have hhands := h.hands_le
  simp only [cashOut]
  rw [amount_of_small (by omega), pure_bind,
    amount_of_small (by omega), pure_bind]
  rfl

theorem spend_eq (h : s.Sound) {cost : Int} {phase : Phase} (hcost : 0 ≤ cost)
    (hle : cost ≤ s.money) :
    spend s cost phase = pure ⟨{ s with money := s.money - cost, phase := phase }, []⟩ := by
  obtain ⟨hmoney, hmoney_le⟩ := h.bounded.money
  simp only [spend]
  rw [amount_of_small (by omega), pure_bind]

theorem apply_eq (h : s.Sound) (action : Index) : apply s action = pure (s.apply action) := by
  unfold apply Sandbox.apply
  cases hphase : s.phase with
  | blindSelect =>
    dsimp only
    rw [beginBlind_eq h, nextBlind_eq h]
    split
    · rfl
    · split <;> rfl
  | playing =>
    obtain ⟨-, -, hlength, -⟩ := h.playing hphase
    dsimp only
    rw [play_eq h hphase]
    split
    · rfl
    · split
      · rename_i hdiscard
        exact discard_eq h hdiscard.2
      · split
        · rename_i hplace
          have hcard : action - 2 < s.cards.length := by
            rw [hlength]
            exact Nat.sub_lt_left_of_lt_add hplace.1 hplace.2
          exact toggle_eq hcard
        · rfl
  | roundEnd =>
    dsimp only
    rw [cashOut_eq h]
    split <;> rfl
  | shop =>
    dsimp only
    rw [nextBlind_eq h]
    split
    · rfl
    · split
      · rename_i hreroll
        rw [spend_eq h (by simp [rerollCost]) hreroll.2, ← hphase]
      · split
        · rename_i hpack
          exact spend_eq h (by simp [packCost]) hpack.2
        · rfl
  | shopPackSelection => rfl
  | gameOver =>
    dsimp only
    split
    · rfl
    · split <;> rfl

theorem act_eq (h : s.Sound) (action : Option Index) : act s action = pure (s.act action) := by
  unfold act Sandbox.act
  cases action with
  | none => rfl
  | some action =>
    cases s.outcome with
    | none => exact apply_eq h action
    | some outcome => rfl

/-- The marks are those of the cards, so each place that is looked up holds one. -/
theorem toggles_eq {all rest : List Card} {place : Nat} (hrest : all.drop place = rest) :
    toggles all place (rest.map (·.picked)) = pure (Sandbox.toggles all place rest) := by
  induction rest generalizing place with
  | nil => rfl
  | cons card rest ih =>
    have hcard : cardAt all place = pure card := by
      have : all[place]? = some card := by rw [← List.head?_drop, hrest, List.head?_cons]
      simp only [cardAt, this]
      rfl
    have hnext : all.drop (place + 1) = rest := by rw [← List.tail_drop, hrest, List.tail_cons]
    simp only [List.map_cons, toggles, Sandbox.toggles, mayToggle]
    rw [ih hnext, pure_bind, hcard, pure_bind]
    split <;> simp [*]

theorem decision_eq (s : Sandbox) : decision s = pure s.decision := by
  have hchoices : choices s = pure s.choices := by
    have htoggles := toggles_eq (List.drop_zero (l := s.cards))
    unfold choices Sandbox.choices
    cases s.phase with
    | playing =>
      dsimp only
      rw [htoggles, pure_bind]
    | _ => rfl
  unfold decision Sandbox.decision
  rw [hchoices]
  cases s.outcome with
  | some outcome => rfl
  | none => cases s.phase <;> rfl

theorem step_eq (h : s.Sound) (action : Option Index) :
    step s action = pure (engine.step s action) := by
  simp only [step]
  rw [act_eq h, pure_bind, decision_eq, pure_bind]
  rfl

theorem run_eq (h : s.Sound) (calls : List Call) : run s calls = pure (s.run calls) := by
  induction calls generalizing s with
  | nil => rfl
  | cons call calls ih =>
    have hcall : perform s call = pure (call.perform s) := by
      cases call with
      | configure deck stake => rfl
      | start => rfl
      | step action =>
        simp only [perform]
        rw [step_eq h, pure_bind]
        rfl
    show (do let next ← perform s call; calls.foldlM perform next) = _
    rw [hcall, pure_bind]
    exact ih (h.perform call)

end Machine
end Sandbox
end BlindArena
