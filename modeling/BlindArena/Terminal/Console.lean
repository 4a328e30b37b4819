import BlindArena.Terminal.Descriptors

/-!
# The console

Text goes to a channel's descriptor: error text at once, output text line by line, with an
unfinished line held back until it is flushed. Output can be silenced. Silence is counted: the first
request points both channels at the sink and keeps duplicates of what they stood for, the last
withdrawal puts those back. Held text is flushed on both occasions, so it goes where it would have
gone when it was written.
-/

namespace BlindArena

structure Console where
  table : Descriptors := .standard
  /-- The unfinished line of the output channel. -/
  pending : String := ""
  /-- Requests for silence not yet withdrawn. -/
  depth : Nat := 0
  sink : Option Nat := none
  /-- The silenced channels and the duplicates to restore them from, in the order they were made. -/
  saved : List (Channel × Nat) := []
  /-- What has reached the terminal. -/
  shownOut : String := ""
  shownErr : String := ""

namespace Console

inductive Action where
  | acquire
  | release
  | write (channel : Channel) (text : String)
  | flush
  deriving DecidableEq

/-- Text reaches whatever the channel's descriptor stands for. -/
def deliver (console : Console) (channel : Channel) (text : String) : Console :=
  match console.table.device? channel.descriptor with
  | some (.terminal .out) => { console with shownOut := console.shownOut ++ text }
  | some (.terminal .err) => { console with shownErr := console.shownErr ++ text }
  | _ => console

/-- A text as its finished lines and the rest. -/
def splitLines (text : String) : String × String :=
  let reversed := text.toList.reverse
  (String.ofList (reversed.dropWhile (· ≠ '\n')).reverse,
    String.ofList (reversed.takeWhile (· ≠ '\n')).reverse)

def flush (console : Console) : Console :=
  { console.deliver .out console.pending with pending := "" }

def write (console : Console) : Channel → String → Console
  | .err, text => console.deliver .err text
  | .out, text =>
    let (lines, rest) := splitLines (console.pending ++ text)
    { console.deliver .out lines with pending := rest }

/-- One channel is pointed at the sink and its device kept. -/
def silence (console : Console) (sink : Nat) (channel : Channel) : Console :=
  let (table, copy) := console.table.duplicate channel.descriptor
  { console with
    table := table.redirect sink channel.descriptor
    saved := console.saved ++ [(channel, copy)] }

/-- One channel is pointed back at its device. -/
def restore (console : Console) : Channel × Nat → Console
  | (channel, copy) =>
    { console with table := (console.table.redirect copy channel.descriptor).close copy }

def engage (console : Console) : Console :=
  let console := console.flush
  let (table, sink) := console.table.openDevice (some .sink)
  let console := { console with table := table, sink := some sink }
  (console.silence sink .out).silence sink .err

def disengage (console : Console) : Console :=
  let console := console.flush
  let restored := console.saved.reverse.foldl restore console
  let table := match console.sink with
    | some sink => restored.table.close sink
    | none => restored.table
  { restored with table := table, saved := [], sink := none }

def acquire (console : Console) : Console :=
  let console := if console.depth = 0 then console.engage else console
  { console with depth := console.depth + 1 }

def release (console : Console) : Console :=
  let console := { console with depth := console.depth - 1 }
  if console.depth = 0 then console.disengage else console

def act (console : Console) : Action → Console
  | .acquire => console.acquire
  | .release => console.release
  | .write channel text => console.write channel text
  | .flush => console.flush

def run (console : Console) (actions : List Action) : Console := actions.foldl act console

@[simp] theorem run_nil (console : Console) : console.run [] = console := rfl

@[simp] theorem run_cons (console : Console) (a : Action) (rest : List Action) :
    console.run (a :: rest) = (console.act a).run rest := rfl

theorem run_append (console : Console) (first rest : List Action) :
    console.run (first ++ rest) = (console.run first).run rest := by
  simp [run, List.foldl_append]

/-- What reaches the terminal's output when a fresh process acts so. -/
def output (actions : List Action) : String := ((({} : Console).run actions).flush).shownOut

end Console

end BlindArena
