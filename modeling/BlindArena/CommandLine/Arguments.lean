import BlindArena.Agent
import BlindArena.Env.Config

/-!
# Arguments

Options have long names only. A value follows its option as the next word or behind an equals sign;
a word that looks like an option is no value. Nothing may be given twice, and there are no
positional words.
-/

namespace BlindArena

structure Arguments where
  config : Option String := none
  seed : Option UInt64 := none
  deck : Option Deck := none
  stake : Option Stake := none
  maxSteps : Option Nat := none
  episodes : Option Nat := none
  envs : Option Nat := none
  agent : Option Style := none
  loud : Bool := false
  json : Bool := false

namespace Arguments

def episodeCount (args : Arguments) : Nat := args.episodes.getD 1

def envCount (args : Arguments) : Nat := args.envs.getD 1

def style (args : Arguments) : Style := args.agent.getD .fish

/-- An unsigned number of 64 bits: digits, perhaps behind a plus sign. -/
def unsigned? (text : String) : Option Nat :=
  let digits := match text.toList with
    | '+' :: digits => digits
    | digits => digits
  if digits.isEmpty || !digits.all Char.isDigit then none
  else
    let value := Nat.ofDigitChars 10 digits 0
    if value < UInt64.size then some value else none

/-- A value for a place that has none yet. -/
def once {α : Type} (place : Option α) (value : Option α) : Option (Option α) :=
  match place, value with
  | none, some a => some (some a)
  | _, _ => none

def setOption (args : Arguments) (name value : String) : Option Arguments :=
  match name with
  | "config" =>
    (once args.config (if value = "" then none else some value)).map fun v =>
      { args with config := v }
  | "seed" =>
    (once args.seed ((unsigned? value).map UInt64.ofNat)).map fun v => { args with seed := v }
  | "deck" =>
    (once args.deck (Enumeration.ofName? value)).map fun v => { args with deck := v }
  | "stake" =>
    (once args.stake (Enumeration.ofName? value)).map fun v => { args with stake := v }
  | "max-steps" =>
    (once args.maxSteps (unsigned? value)).map fun v => { args with maxSteps := v }
  | "episodes" =>
    (once args.episodes (unsigned? value)).map fun v => { args with episodes := v }
  | "envs" => (once args.envs (unsigned? value)).map fun v => { args with envs := v }
  | "agent" =>
    (once args.agent (Style.parse value).toOption).map fun v => { args with agent := v }
  | _ => none

def setFlag (args : Arguments) (name : String) : Option Arguments :=
  match name, args.loud, args.json with
  | "loud", false, _ => some { args with loud := true }
  | "json", _, false => some { args with json := true }
  | _, _, _ => none

def isFlag (name : String) : Bool := name = "loud" || name = "json"

/-- More than a lone dash. -/
def looksLikeOption (word : String) : Bool :=
  match word.toList with
  | '-' :: _ :: _ => true
  | _ => false

/-- The name of an option and the value behind its equals sign, if the word is an option. -/
def split? (word : String) : Option (String × Option String) :=
  match word.toList with
  | '-' :: '-' :: body =>
    let name := String.ofList (body.takeWhile (· ≠ '='))
    match body.dropWhile (· ≠ '=') with
    | [] => some (name, none)
    | _ :: value => some (name, some (String.ofList value))
  | _ => none

def parseFrom (args : Arguments) : List String → Option Arguments
  | [] => some args
  | ["--"] => some args
  | word :: rest =>
    match split? word with
    | none => none
    | some (name, some value) => (args.setOption name value).bind fun args => parseFrom args rest
    | some (name, none) =>
      if isFlag name then (args.setFlag name).bind fun args => parseFrom args rest
      else match rest with
        | [] => none
        | value :: rest =>
          if looksLikeOption value then none
          else (args.setOption name value).bind fun args => parseFrom args rest

def parse (words : List String) : Option Arguments := parseFrom {} words

/-- Settings from a file, overridden by what the arguments name. -/
def override (args : Arguments) (config : Config) : Config where
  seed := args.seed <|> config.seed
  deck := args.deck.getD config.deck
  stake := args.stake.getD config.stake
  budget := args.maxSteps.getD config.budget
  quiet := config.quiet && !args.loud

end Arguments

end BlindArena
