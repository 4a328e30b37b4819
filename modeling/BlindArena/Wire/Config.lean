import BlindArena.Env.Config
import BlindArena.Failure
import BlindArena.Json.Field
import BlindArena.Json.Reader

/-!
# Settings on the wire

Settings are read from a JSON record of which any part may be missing; what is missing keeps its
standard value. A settings file holds one such record as UTF-8 text.
-/

namespace BlindArena
open Json

namespace Config

def toJson (c : Config) : Json :=
  record
    [("seed", nullable word c.seed),
      ("deck", named c.deck),
      ("stake", named c.stake),
      ("max_episode_steps", nat c.budget),
      ("quiet", .bool c.quiet)]

def ofJson? (json : Json) : Option Config := do
  match ← json.fields? ["seed", "deck", "stake", "max_episode_steps", "quiet"] .leading with
  | [seed, deck, stake, budget, quiet] =>
    let standard : Config := {}
    some
      { seed := ← optional standard.seed (nullable? word?) seed
        deck := ← optional standard.deck named? deck
        stake := ← optional standard.stake named? stake
        budget := ← optional standard.budget count? budget
        quiet := ← optional standard.quiet bool? quiet }
  | _ => none

def parse? (text : String) : Option Config := (Json.parse? text).bind ofJson?

/-- The settings in a file, if it can be read at all. -/
def load (path : String) (contents : Option ByteArray) : Except Failure Config :=
  match contents.bind String.fromUTF8? with
  | none => .error (.unreadableConfig path)
  | some text =>
    match parse? text with
    | none => .error (.malformedConfig path)
    | some config => .ok config

end Config

end BlindArena
