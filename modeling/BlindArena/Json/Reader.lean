import BlindArena.Json.Token
import BlindArena.Json.Value

/-!
# Reading JSON

A list of tokens is read from the left by a machine that keeps the containers still open on a
stack. Nesting is bounded by nothing but the text.
-/

namespace BlindArena
namespace Json

/-- A container that waits for a value: the items or members before it, last first. -/
inductive Frame where
  | item (items : List Json)
  | member (members : List (Option String × Json)) (key : Option String)

/-- What may come next. -/
inductive Reader where
  | value (stack : List Frame)
  | firstItem (stack : List Frame)
  | afterItem (items : List Json) (stack : List Frame)
  | firstKey (stack : List Frame)
  | nextKey (members : List (Option String × Json)) (stack : List Frame)
  | colon (members : List (Option String × Json)) (key : Option String) (stack : List Frame)
  | afterMember (members : List (Option String × Json)) (stack : List Frame)
  | done (value : Json)

namespace Reader

/-- A finished value goes to the container that waits for it. -/
def give (value : Json) : List Frame → Reader
  | [] => .done value
  | .item items :: stack => .afterItem (value :: items) stack
  | .member members key :: stack => .afterMember ((key, value) :: members) stack

/-- A token where a value has to begin. -/
def start (stack : List Frame) : Token → Option Reader
  | .null => some (give .null stack)
  | .bool b => some (give (.bool b) stack)
  | .number n => some (give (.number n) stack)
  | .string s => some (give (.string s) stack)
  | .leftBracket => some (.firstItem stack)
  | .leftBrace => some (.firstKey stack)
  | _ => none

def step : Reader → Token → Option Reader
  | .value stack, t => start stack t
  | .firstItem stack, .rightBracket => some (give (.array []) stack)
  | .firstItem stack, t => start (.item [] :: stack) t
  | .afterItem items stack, .comma => some (.value (.item items :: stack))
  | .afterItem items stack, .rightBracket => some (give (.array items.reverse) stack)
  | .firstKey stack, .rightBrace => some (give (.object []) stack)
  | .firstKey stack, .string key => some (.colon [] key stack)
  | .nextKey members stack, .string key => some (.colon members key stack)
  | .colon members key stack, .colon => some (.value (.member members key :: stack))
  | .afterMember members stack, .comma => some (.nextKey members stack)
  | .afterMember members stack, .rightBrace => some (give (.object members.reverse) stack)
  | _, _ => none

def run : Reader → List Token → Option Reader
  | r, [] => some r
  | r, t :: ts => (step r t).bind fun r => run r ts

theorem run_cons (r : Reader) (t : Token) (ts : List Token) :
    run r (t :: ts) = (step r t).bind fun r => run r ts := rfl

end Reader

def ofTokens? (ts : List Token) : Option Json :=
  match Reader.run (.value []) ts with
  | some (.done value) => some value
  | _ => none

/-- The value that a whole text spells. -/
def parse? (text : String) : Option Json := (Token.ofString? text).bind ofTokens?

end Json

end BlindArena
