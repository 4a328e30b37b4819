import BlindArena.Json.Field
import BlindArena.Json.Reader
import BlindArena.Report
import BlindArena.Snapshot

/-!
# Reports on the wire

The JSON forms of choices, outcomes, reports and snapshots: records with their fields in a fixed
order, an absent phase or outcome written as null. On reading, a field that may be null may also be
missing.
-/

namespace BlindArena
open Json

namespace Choice

def toJson (c : Choice) : Json := record [("index", nat c.index), ("label", text c.label)]

def ofJson? (json : Json) : Option Choice := do
  match ← json.fields? ["index", "label"] .whole with
  | [index, label] => some ⟨← required count? index, ← required text? label⟩
  | _ => none

end Choice

namespace Outcome

def toJson (o : Outcome) : Json := record [("restart", .bool o.restart)]

def ofJson? (json : Json) : Option Outcome := do
  match ← json.fields? ["restart"] .whole with
  | [restart] => some ⟨← required bool? restart⟩
  | _ => none

end Outcome

namespace Report

def toJson (r : Report) : Json :=
  record
    [("status", named r.status),
      ("phase", nullable named r.phase),
      ("actions", .array (r.actions.map Choice.toJson)),
      ("finished", nullable Outcome.toJson r.finished)]

def ofJson? (json : Json) : Option Report := do
  match ← json.fields? ["status", "phase", "actions", "finished"] .whole with
  | [status, phase, actions, finished] =>
    some
      { status := ← required named? status
        phase := ← optional none (nullable? named?) phase
        actions := ← required (list? Choice.ofJson?) actions
        finished := ← optional none (nullable? Outcome.ofJson?) finished }
  | _ => none

end Report

namespace Snapshot

def toJson (s : Snapshot) : Json := record [("score", int s.score), ("money", int s.money)]

def ofJson? (json : Json) : Option Snapshot := do
  match ← json.fields? ["score", "money"] .whole with
  | [score, money] => some ⟨← required amount? score, ← required amount? money⟩
  | _ => none

end Snapshot

end BlindArena
