/-!
# Terminal colours

Text for a terminal is wrapped in a colour sequence when colours are on and left alone otherwise.
-/

namespace BlindArena

inductive Colour where
  | dim | red | green | yellow | magenta | cyan | white
  deriving DecidableEq

namespace Colour

/-- The parameter that selects the colour in a terminal's escape sequence. -/
def code : Colour → Nat
  | dim => 2
  | red => 31
  | green => 32
  | yellow => 33
  | magenta => 35
  | cyan => 36
  | white => 37

def paint (colour : Colour) (on : Bool) (text : String) : String :=
  if on then "\x1b[" ++ toString colour.code ++ "m" ++ text ++ "\x1b[0m" else text

end Colour

end BlindArena
