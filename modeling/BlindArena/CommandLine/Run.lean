import BlindArena.CommandLine.Arguments
import BlindArena.Rollout.Batch
import BlindArena.Sandbox.Rules
import BlindArena.Wire.Config
import BlindArena.Wire.Transition

/-!
# Rolling out from the command line

Episodes of a named player are played on the sandbox, in one environment after the other or in
several at once, and reported: one line for each summary and one of means. With one environment
every transition can be written as a JSON line.
-/

namespace BlindArena

/-- Why a command ends early. -/
inductive Stop where
  | failed (failure : Failure)
  | overflowed (cause : Overflow)

namespace Stop

def code : Stop → Nat
  | failed _ => 1
  | overflowed _ => 101

def message : Stop → String
  | failed failure => "Error: " ++ failure.message
  | overflowed cause => cause.message

end Stop

/-- What a command leaves: its exit code, what it wrote, and what it put into its journal. -/
structure Command where
  code : Nat
  out : String := ""
  err : String
  journal : String := ""

namespace CommandLine

/-- The directory of the journal, which is made before anything else. -/
def journalDirectory : String := "logs"

/-- Without a journal nothing is done. -/
def withoutJournal : Command where
  code := 101
  err := "create logs directory\n"

def badArguments : Command where
  code := 2
  err := "error: bad arguments\n"

/-! ## Reports -/

def openingText (args : Arguments) (config : Config) : String :=
  "rolling out " ++ toString args.episodeCount ++ " episode(s) of " ++ args.style.name ++ " on "
    ++ config.deck.name ++ " / " ++ config.stake.name ++ " across " ++ toString args.envCount
    ++ " env(s)"

def total (count : Summary → Nat) (summaries : List Summary) : Nat :=
  summaries.foldl (fun sum s => sum + count s) 0

/-- Means over the summaries; over none, the empty sum, a negative zero, is its own mean. -/
def meansText (summaries : List Summary) : String :=
  let count := Float32.ofNat (max summaries.length 1)
  let reward := summaries.foldl (fun sum s => sum + s.reward) (-0.0 : Float32)
  let steps := Float32.ofNat (total (·.steps) summaries)
  "mean reward " ++ fixedPlaces 2 (reward / count) ++ " mean steps "
    ++ fixedPlaces 1 (steps / count) ++ " blinds cleared "
    ++ toString (total (·.blinds) summaries)

def closingNotes (summaries : List Summary) : Transcript :=
  summaries.map (fun s => Transcript.log .info (s.display false))
    ++ [Transcript.log .info (meansText summaries)]

def jsonLine (t : Transition) : Transcript := [Transcript.line t.toJson.render]

/-! ## Playing -/

/-- One environment and one agent through episodes with seeds in a row. -/
def playFrom {σ α : Type} (E : Engine σ) (A : Agent α) (each : Transition → Transcript)
    (env : Env σ) (agent : α) (seed : UInt64) : Nat → Except Stop (List Summary) × Transcript
  | 0 => (.ok [], [])
  | count + 1 =>
    match Rollout.episode E A each false env (some seed) agent with
    | .error i => (.error (.overflowed i.cause), i.transcript)
    | .ok played =>
      match played.answer with
      | .error failure => (.error (.failed failure), played.transcript)
      | .ok summary =>
        let later := playFrom E A each played.env played.agent (seed + 1) count
        (later.1.map (summary :: ·), played.transcript ++ later.2)

/-- Room for all the summaries is taken before the first episode. -/
def sequential (args : Arguments) (config : Config) (word : UInt64) :
    Except Stop (List Summary) × Transcript :=
  match Env.make Sandbox.engine config word with
  | (.error failure, said) => (.error (.failed failure), said)
  | (.ok env, said) =>
    if Summary.maxKept < args.episodeCount then (.error (.overflowed .capacity), said)
    else
      let each := if args.json then jsonLine else fun _ => []
      let player := Player.ofStyle args.style env.seed
      let played :=
        playFrom Sandbox.engine Player.agent each env player env.seed args.episodeCount
      (played.1, said ++ played.2)

def parallel (args : Arguments) (config : Config) (word : UInt64) :
    Except Stop (List Summary) × Transcript :=
  let warned :=
    if args.json then
      [Transcript.log .warn "--json is ignored with more than one environment"]
    else []
  match Fleet.make Sandbox.engine args.envCount config word with
  | (.error failure, said) => (.error (.failed failure), warned ++ said)
  | (.ok fleet, said) =>
    let players := fleet.envs.map fun env => Player.ofStyle args.style env.seed
    match Rollout.batch Sandbox.engine Player.agent false fleet players args.episodeCount with
    | .error i => (.error (.overflowed i.cause), warned ++ said ++ i.transcript)
    | .ok played => (played.answer.mapError .failed, warned ++ said ++ played.transcript)

def rollOut (args : Arguments) (config : Config) (word : UInt64) :
    Except Stop Unit × Transcript :=
  let opening := [Transcript.log .info (openingText args config)]
  let play := if args.envCount ≤ 1 then sequential else parallel
  match play args config word with
  | (.error stop, said) => (.error stop, opening ++ said)
  | (.ok summaries, said) => (.ok (), opening ++ said ++ closingNotes summaries)

/-! ## The command -/

/-- The settings for the arguments, given what the settings file holds if it can be read. -/
def settings (args : Arguments) (contents : Option ByteArray) : Except Failure Config :=
  match args.config with
  | some path => (Config.load path contents).map args.override
  | none => .ok (args.override {})

def journalText (transcript : Transcript) : String :=
  String.join ((Transcript.records transcript .debug).map fun r => r.line ++ "\n")

/-- The command as a whole. The terminal shows records of level info and above, the journal those of
level debug and above. -/
def run (args : Arguments) (contents : Option ByteArray) (word : UInt64) : Command :=
  let (answer, transcript) : Except Stop Unit × Transcript :=
    match settings args contents with
    | .error failure => (.error (.failed failure), [])
    | .ok config => rollOut args config word
  let out := Console.output (Transcript.logged .info transcript)
  match answer with
  | .error stop => ⟨stop.code, out, stop.message ++ "\n", journalText transcript⟩
  | .ok () => ⟨0, out, "", journalText transcript⟩

end CommandLine

end BlindArena
