import BlindArena.Engine
import BlindArena.Random.Range

/-!
# The sandbox

A complete engine with small rules. A card is a number from one to eleven; the points of a hand are
the sum of the cards played times how many they are. Points are chips toward the target of the
blind, and the hands of a blind are counted.
-/

namespace BlindArena

inductive Blind where
  | small | big | boss
  deriving DecidableEq

namespace Blind

def name : Blind → String
  | small => "Small"
  | big => "Big"
  | boss => "Boss"

/-- Twice the factor on the base target. -/
def multiplier : Blind → Int
  | small => 2
  | big => 3
  | boss => 4

def payout : Blind → Int
  | small => 3
  | big => 4
  | boss => 5

end Blind

structure Card where
  value : Int
  picked : Bool := false
  deriving DecidableEq

structure Sandbox where
  rng : Generator
  deck : Deck := .red
  stake : Stake := .white
  phase : Phase := .blindSelect
  outcome : Option Outcome := none
  blind : Blind := .small
  ante : Nat := 1
  score : Int := 0
  money : Int := 0
  chips : Int := 0
  hands : Nat := 0
  discards : Nat := 0
  cards : List Card := []
  deriving DecidableEq

namespace Sandbox

def handSize : Nat := 8

def maxPicked : Nat := 5

def baseTarget : Int := 300

def rerollCost : Int := 5

def packCost : Int := 4

def startMoney : Deck → Int
  | .yellow => 14
  | _ => 4

def handsPerBlind : Deck → Nat
  | .blue => 5
  | _ => 4

def discardsPerBlind : Deck → Nat
  | .red => 4
  | _ => 3

/-- The points that beat the blind. -/
def target (s : Sandbox) : Int :=
  let base := baseTarget * s.ante * s.blind.multiplier / 2
  base + base * s.stake.level / 10

/-- Back to the opening; the generator and the cards of an earlier run stay. -/
def resetRun (s : Sandbox) : Sandbox :=
  { s with
    phase := .blindSelect
    outcome := none
    blind := .small
    ante := 1
    score := 0
    chips := 0
    money := startMoney s.deck }

def fresh (seed : UInt64) : Sandbox := resetRun { rng := .seeded seed }

/-! ## Cards -/

def deal : Nat → Generator → List Card × Generator
  | 0, g => ([], g)
  | count + 1, g =>
    let (value, g) := g.card
    let (rest, g) := deal count g
    (⟨value, false⟩ :: rest, g)

/-- Picked cards are replaced, in order. -/
def redraw : List Card → Generator → List Card × Generator
  | [], g => ([], g)
  | card :: rest, g =>
    if card.picked then
      let (value, g) := g.card
      let (rest, g) := redraw rest g
      (⟨value, false⟩ :: rest, g)
    else
      let (rest, g) := redraw rest g
      (card :: rest, g)

def pickedCount (cards : List Card) : Nat := cards.countP (·.picked)

def pickedValues (cards : List Card) : List Int := (cards.filter (·.picked)).map (·.value)

/-- The sum of the played values times their number. -/
def points (played : List Int) : Int := played.foldr (· + ·) 0 * played.length

/-- Without a picked card the first one is played. -/
def pickFirst (cards : List Card) : List Card :=
  if pickedCount cards = 0 then
    match cards with
    | [] => []
    | card :: rest => { card with picked := true } :: rest
  else cards

/-- A card may be picked or put back. -/
def mayToggle (cards : List Card) (card : Card) : Bool :=
  card.picked || pickedCount cards < maxPicked

end Sandbox

end BlindArena
