/-!
# Small text forms

Padding to a width, and the forms in which log texts show an optional value or a list.
-/

namespace BlindArena.Text

def spaces (count : Nat) : String := String.ofList (List.replicate count ' ')

/-- Spaces in front up to a width. -/
def padLeft (width : Nat) (text : String) : String := spaces (width - text.length) ++ text

/-- Spaces behind up to a width. -/
def padRight (width : Nat) (text : String) : String := text ++ spaces (width - text.length)

def option {α : Type} (write : α → String) : Option α → String
  | none => "None"
  | some a => "Some(" ++ write a ++ ")"

def list {α : Type} (write : α → String) (items : List α) : String :=
  "[" ++ String.intercalate ", " (items.map write) ++ "]"

def bool : Bool → String
  | true => "true"
  | false => "false"

end BlindArena.Text
