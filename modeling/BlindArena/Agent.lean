import BlindArena.Env.View
import BlindArena.Failure
import BlindArena.Random.Range

/-!
# Agents

An agent is a machine that picks an index from each view it is shown. The index need not be legal.
The players here choose evenly among the legal indices, take the first of them, draw from the whole
action space, or go round a list of their own.
-/

namespace BlindArena

structure Agent (α : Type) where
  act : α → View → Index × α

/-- The players known by name. -/
inductive Style where
  | fish | first | noise
  deriving DecidableEq, Inhabited

namespace Style

def name : Style → String
  | fish => "Fish"
  | first => "First"
  | noise => "Noise"

instance : Enumeration Style where
  all := [fish, first, noise]
  name := name
  mem_all a := by cases a <;> simp
  nodup_names := by simp [name]

/-- Capital letters are as good as small ones. Only Latin letters without marks count as such, as no
other capital has one of the names' letters as its small form. -/
def parse (text : String) : Except Failure Style :=
  match text.map Char.toLower with
  | "fish" => .ok fish
  | "first" => .ok first
  | "noise" => .ok noise
  | _ => .error (.unknownAgent text)

end Style

inductive Player where
  | fish (g : Generator)
  | first
  | noise (g : Generator)
  | cycle (actions : List Index) (turn : Nat)

namespace Player

def ofStyle (style : Style) (seed : UInt64) : Player :=
  match style with
  | .fish => fish (.seeded seed)
  | .first => first
  | .noise => noise (.seeded seed)

/-- The choice of a player that sees these legal indices, and the player after it. -/
def choose (legal : List Index) : Player → Index × Player
  | fish g =>
    let (choice, g) := Generator.choose? legal g
    (choice.getD 0, fish g)
  | first => (legal.headD 0, first)
  | noise g =>
    let (choice, g) := Generator.below32 actionSpace g
    (choice, noise g)
  | cycle actions turn => (actions[turn % actions.length]?.getD 0, cycle actions (turn + 1))

def agent : Agent Player := ⟨fun player view => choose view.info.valid player⟩

end Player

end BlindArena
