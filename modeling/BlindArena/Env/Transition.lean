import BlindArena.Ending
import BlindArena.Env.View

/-!
# Transitions

What one step produces. When the environment was reset on the spot because its episode ended, the
view is the new episode's first and the old episode's last view is kept beside it. Running out of
budget is an ending like any other; no episode is ever cut short.
-/

namespace BlindArena

structure Transition where
  view : View
  reward : Float32
  ending : Option Ending
  /-- The last view of the old episode, when a new one has begun. -/
  terminal : Option View := none

namespace Transition

def terminated (t : Transition) : Bool := t.ending.isSome

def truncated (_ : Transition) : Bool := false

/-- The view of the step that was taken. -/
def last (t : Transition) : View := t.terminal.getD t.view

/-- A new episode has begun with this view. -/
def renewed (t : Transition) (opening : View) : Transition :=
  { t with view := opening, terminal := some t.view }

@[simp] theorem last_renewed (t : Transition) (opening : View) :
    (t.renewed opening).last = t.view := rfl

end Transition

end BlindArena
