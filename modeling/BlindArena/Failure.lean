import BlindArena.Deck
import BlindArena.Report
import BlindArena.Stake

/-!
# Failures

The causes for which a call fails, and the text of each: where it happened, then the engine's own
reason if there is one.
-/

namespace BlindArena

inductive Failure where
  /-- An engine was asked directly. -/
  | engine (reason : String)
  | unavailable (seed : UInt64) (deck : Deck) (stake : Stake) (reason : String)
  | start (seed : UInt64) (reason : String)
  | probe (reason : String)
  | step (action : Index) (reason : String)
  | closed
  | noEnvironments
  | actionCount (expected given : Nat)
  | agentCount (expected given : Nat)
  | unknownDeck (text : String)
  | unknownStake (text : String)
  | unknownPhase (text : String)
  | unknownAgent (text : String)
  | unreadableConfig (path : String)
  | malformedConfig (path : String)
  deriving DecidableEq

namespace Failure

def message : Failure → String
  | engine reason => reason
  | unavailable seed deck stake reason =>
    "engine unavailable (seed " ++ toString seed.toNat ++ ", deck " ++ deck.name ++ ", stake "
      ++ stake.name ++ "): " ++ reason
  | start seed reason => "start run (seed " ++ toString seed.toNat ++ "): " ++ reason
  | probe reason => "probe first decision point: " ++ reason
  | step action reason => "engine step with action " ++ toString action ++ ": " ++ reason
  | closed => "environment closed"
  | noEnvironments => "need at least one environment"
  | actionCount expected given =>
    "expected " ++ toString expected ++ " actions, got " ++ toString given
  | agentCount expected given =>
    "expected " ++ toString expected ++ " agents, got " ++ toString given
  | unknownDeck text => "invalid deck type: " ++ text
  | unknownStake text => "invalid stake level: " ++ text
  | unknownPhase text => "invalid phase: " ++ text
  | unknownAgent text => "unknown agent: " ++ text ++ " (fish | first | noise)"
  | unreadableConfig path => "read config " ++ path
  | malformedConfig path => "parse config " ++ path

end Failure

namespace Deck

def parse (text : String) : Except Failure Deck :=
  match Enumeration.ofName? text with
  | some deck => .ok deck
  | none => .error (.unknownDeck text)

end Deck

namespace Stake

def parse (text : String) : Except Failure Stake :=
  match Enumeration.ofName? text with
  | some stake => .ok stake
  | none => .error (.unknownStake text)

end Stake

namespace Phase

def parse (text : String) : Except Failure Phase :=
  match Enumeration.ofName? text with
  | some phase => .ok phase
  | none => .error (.unknownPhase text)

end Phase

end BlindArena
