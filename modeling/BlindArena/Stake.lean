import BlindArena.Enumeration

/-!
# Stakes

The difficulty of a run, from easiest to hardest. A stake's level is its place in that order.
-/

namespace BlindArena

inductive Stake where
  | white | red | green | blue | black | purple | orange | gold
  deriving DecidableEq, Inhabited

namespace Stake

def all : List Stake := [white, red, green, blue, black, purple, orange, gold]

def name : Stake → String
  | white => "White"
  | red => "Red"
  | green => "Green"
  | blue => "Blue"
  | black => "Black"
  | purple => "Purple"
  | orange => "Orange"
  | gold => "Gold"

def level : Stake → Nat
  | white => 0
  | red => 1
  | green => 2
  | blue => 3
  | black => 4
  | purple => 5
  | orange => 6
  | gold => 7

instance : Enumeration Stake where
  all := all
  name := name
  mem_all a := by cases a <;> simp [all]
  nodup_names := by simp [all, name]

instance : Ord Stake where
  compare a b := compare a.level b.level

end Stake

end BlindArena
