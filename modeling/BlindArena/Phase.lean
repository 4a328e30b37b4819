import BlindArena.Enumeration
import BlindArena.Paint

/-!
# Phases

The visible phases of a run, in the order of their places in an observation. A phase that is not
known shares place 0 with the shop.
-/

namespace BlindArena

inductive Phase where
  | shop | shopPackSelection | blindSelect | playing | roundEnd | gameOver
  deriving DecidableEq

namespace Phase

def all : List Phase := [shop, shopPackSelection, blindSelect, playing, roundEnd, gameOver]

def name : Phase → String
  | shop => "Shop"
  | shopPackSelection => "ShopPackSelection"
  | blindSelect => "BlindSelect"
  | playing => "Playing"
  | roundEnd => "RoundEnd"
  | gameOver => "GameOver"

def index : Phase → Nat
  | shop => 0
  | shopPackSelection => 1
  | blindSelect => 2
  | playing => 3
  | roundEnd => 4
  | gameOver => 5

instance : Enumeration Phase where
  all := all
  name := name
  mem_all a := by cases a <;> simp [all]
  nodup_names := by simp [all, name]

/-- The place of a phase in an observation. -/
def encode (phase : Option Phase) : Nat := (phase.map index).getD 0

@[simp] theorem encode_none : encode none = 0 := rfl

theorem index_lt (phase : Phase) : phase.index < 6 := by cases phase <;> simp [index]

theorem encode_lt : (phase : Option Phase) → encode phase < 6
  | none => by simp
  | some phase => phase.index_lt

def colour : Phase → Colour
  | shop | shopPackSelection => .yellow
  | blindSelect => .cyan
  | playing => .green
  | roundEnd => .magenta
  | gameOver => .red

def display (colours : Bool) (phase : Phase) : String := phase.colour.paint colours phase.name

end Phase

end BlindArena
