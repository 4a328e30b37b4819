import BlindArena.Enumeration

/-!
# Decks

The starting deck chosen before a run begins.
-/

namespace BlindArena

inductive Deck where
  | red | blue | yellow | green | black | magic | nebula | ghost | abandoned | checkered | zodiac
  | painted | anaglyph | plasma | erratic
  deriving DecidableEq, Inhabited

namespace Deck

def all : List Deck :=
  [red, blue, yellow, green, black, magic, nebula, ghost, abandoned, checkered, zodiac, painted,
    anaglyph, plasma, erratic]

def name : Deck → String
  | red => "Red"
  | blue => "Blue"
  | yellow => "Yellow"
  | green => "Green"
  | black => "Black"
  | magic => "Magic"
  | nebula => "Nebula"
  | ghost => "Ghost"
  | abandoned => "Abandoned"
  | checkered => "Checkered"
  | zodiac => "Zodiac"
  | painted => "Painted"
  | anaglyph => "Anaglyph"
  | plasma => "Plasma"
  | erratic => "Erratic"

instance : Enumeration Deck where
  all := all
  name := name
  mem_all a := by cases a <;> simp [all]
  nodup_names := by simp [all, name]

end Deck

end BlindArena
