import BlindArena.Sandbox.Basic
import BlindArena.Text

/-!
# The sandbox's rules

What each action does in each phase, and which actions are offered. An action that means nothing in
the present phase is ignored, with a word of it printed.
-/

namespace BlindArena
namespace Sandbox

/-! ## Moves -/

def beginBlind (s : Sandbox) : Spoken Sandbox :=
  let (cards, rng) := deal handSize s.rng
  let s := { s with
    hands := handsPerBlind s.deck
    discards := discardsPerBlind s.deck
    chips := 0
    cards := cards
    rng := rng
    phase := .playing }
  ⟨s, [.line ("blind " ++ s.blind.name ++ " ante " ++ toString s.ante ++ " target " ++
    toString s.target)]⟩

def nextBlind (s : Sandbox) : Sandbox :=
  match s.blind with
  | .small => { s with blind := .big, phase := .blindSelect }
  | .big => { s with blind := .boss, phase := .blindSelect }
  | .boss => { s with blind := .small, ante := s.ante + 1, phase := .blindSelect }

def play (s : Sandbox) : Spoken Sandbox :=
  let picked := pickFirst s.cards
  let played := pickedValues picked
  let gained := points played
  let (cards, rng) := redraw picked s.rng
  let s := { s with
    chips := s.chips + gained
    score := s.score + gained
    hands := s.hands - 1
    cards := cards
    rng := rng }
  let said := "played " ++ Text.list toString played ++ " for " ++ toString gained ++ " ("
    ++ toString s.chips ++ "/" ++ toString s.target ++ ")"
  if s.target ≤ s.chips then ⟨{ s with phase := .roundEnd }, [.line said]⟩
  else if s.hands = 0 then ⟨{ s with phase := .gameOver }, [.line said, .line "out of hands"]⟩
  else ⟨s, [.line said]⟩

def discard (s : Sandbox) : Sandbox :=
  if 0 < pickedCount s.cards then
    let (cards, rng) := redraw s.cards s.rng
    { s with discards := s.discards - 1, cards := cards, rng := rng }
  else s

def toggle (s : Sandbox) (place : Nat) : Sandbox :=
  match s.cards[place]? with
  | some card =>
    if mayToggle s.cards card then
      { s with cards := s.cards.set place { card with picked := !card.picked } }
    else s
  | none => s

def cashOut (s : Sandbox) : Spoken Sandbox :=
  let payout := s.blind.payout + s.hands
  ⟨{ s with money := s.money + payout, phase := .shop },
    [.line ("cashed out $" ++ toString payout)]⟩

def finish (s : Sandbox) (restart : Bool) : Sandbox := { s with outcome := some ⟨restart⟩ }

def ignored (s : Sandbox) (action : Index) : Spoken Sandbox :=
  ⟨s, [.line ("ignored action " ++ toString action ++ " in " ++ s.phase.name)]⟩

def apply (s : Sandbox) (action : Index) : Spoken Sandbox :=
  match s.phase with
  | .blindSelect =>
    if action = 1 then s.beginBlind
    else if action = 2 ∧ s.blind ≠ .boss then ⟨s.nextBlind, []⟩
    else s.ignored action
  | .playing =>
    if action = 0 then s.play
    else if action = 1 ∧ 0 < s.discards then ⟨s.discard, []⟩
    else if 2 ≤ action ∧ action < 2 + handSize then ⟨s.toggle (action - 2), []⟩
    else s.ignored action
  | .roundEnd => if action = 0 then s.cashOut else s.ignored action
  | .shop =>
    if action = 0 then ⟨s.nextBlind, []⟩
    else if action = 1 ∧ rerollCost ≤ s.money then ⟨{ s with money := s.money - rerollCost }, []⟩
    else if action = 2 ∧ packCost ≤ s.money then
      ⟨{ s with money := s.money - packCost, phase := .shopPackSelection }, []⟩
    else s.ignored action
  | .shopPackSelection => ⟨{ s with phase := .shop }, []⟩
  | .gameOver =>
    if action = 1 then ⟨s.finish true, []⟩
    else if action = 4 then ⟨s.finish false, []⟩
    else s.ignored action

/-! ## Choices -/

/-- The cards that may be picked or put back, from a place on. -/
def toggles (all : List Card) : Nat → List Card → List Choice
  | _, [] => []
  | place, card :: rest =>
    let offered := toggles all (place + 1) rest
    if mayToggle all card then
      ⟨2 + place, "Toggle card " ++ toString place ++ " (" ++ toString card.value ++ ")"⟩ :: offered
    else offered

def choices (s : Sandbox) : List Choice :=
  match s.phase with
  | .blindSelect =>
    ⟨1, "Play next blind"⟩ :: if s.blind = .boss then [] else [⟨2, "Skip blind"⟩]
  | .playing =>
    ⟨0, "Play selected"⟩ :: (if 0 < s.discards then [⟨1, "Discard selected"⟩] else [])
      ++ toggles s.cards 0 s.cards
  | .roundEnd => [⟨0, "Cash out"⟩]
  | .shop =>
    ⟨0, "Next round"⟩ :: (if rerollCost ≤ s.money then [⟨1, "Reroll"⟩] else [])
      ++ (if packCost ≤ s.money then [⟨2, "Open booster pack"⟩] else [])
  | .shopPackSelection => []
  | .gameOver => [⟨1, "Play again"⟩, ⟨4, "Exit"⟩]

/-- The present decision point. -/
def decision (s : Sandbox) : Report :=
  match s.outcome, s.phase with
  | some outcome, phase => .ended (some phase) outcome.restart
  | none, .shopPackSelection => .progressed (some .shopPackSelection)
  | none, phase => .input phase s.choices

/-! ## The engine -/

def configure (s : Sandbox) (deck : Deck) (stake : Stake) : Sandbox :=
  { s with deck := deck, stake := stake }

/-- A finished run takes no more actions. -/
def act (s : Sandbox) (action : Option Index) : Spoken Sandbox :=
  match action, s.outcome with
  | some action, none => s.apply action
  | _, _ => ⟨s, []⟩

def figures (s : Sandbox) : Snapshot := ⟨s.score, s.money⟩

def engine : Engine Sandbox where
  seeded seed := ⟨.ok (fresh seed), []⟩
  configure s deck stake := ⟨s.configure deck stake, []⟩
  start s :=
    ⟨(.ok (), s.resetRun),
      [.line ("new run: " ++ s.deck.name ++ " deck, " ++ s.stake.name ++ " stake")]⟩
  step s action :=
    let moved := s.act action
    ⟨(.ok moved.value.decision, moved.value), moved.output⟩
  snapshot s := ⟨.ok s.figures, []⟩

end Sandbox

end BlindArena
