import BlindArena.Amount
import BlindArena.Enumeration
import BlindArena.Json.Value

/-!
# Typed reading

A JSON value is read as a value of a given type or refused. Whole numbers are read from numerals
without fraction or exponent, in range. A member of an enumeration is read from its name, bare or as
the only key of an object that holds null. A record is read from an object, whose unknown keys are
passed over and whose known keys may come once, or from an array of its fields in order.
-/

namespace BlindArena
namespace Json

def bool? : Json → Option Bool
  | .bool b => some b
  | _ => none

def text? : Json → Option String
  | .string s => s
  | _ => none

def int? : Json → Option Int
  | .number n => n.toInt?
  | _ => none

/-- A signed whole number of 64 bits. -/
def amount? (json : Json) : Option Int := do
  let x ← json.int?
  if Amount.Fits x then some x else none

/-- An unsigned whole number of 64 bits. -/
def count? (json : Json) : Option Nat := do
  let x ← json.int?
  if 0 ≤ x ∧ x < UInt64.size then some x.toNat else none

def word? (json : Json) : Option UInt64 := json.count?.map UInt64.ofNat

def nullable? {α : Type} (read : Json → Option α) : Json → Option (Option α)
  | .null => some none
  | json => (read json).map some

def list? {α : Type} (read : Json → Option α) : Json → Option (List α)
  | .array items => items.mapM read
  | _ => none

def named? {α : Type} [Enumeration α] : Json → Option α
  | .string (some name) => Enumeration.ofName? name
  | .object [(some name, .null)] => Enumeration.ofName? name
  | _ => none

def named {α : Type} [Enumeration α] (a : α) : Json := text (Enumeration.name a)

/-- The members of an object whose keys all have a text. -/
def members? : List (Option String × Json) → Option (List (String × Json))
  | [] => some []
  | (key, value) :: rest => do
    let key ← key
    let rest ← members? rest
    some ((key, value) :: rest)

/-- How many of a record's fields an array has to give. -/
inductive ArrayForm where
  | whole | leading
  deriving DecidableEq

/-- What is given for each of the named fields, in order. -/
def fields? (names : List String) (form : ArrayForm) : Json → Option (List (Option Json))
  | .array items =>
    if items.length = names.length || (form = .leading && items.length < names.length) then
      some (items.map some ++ List.replicate (names.length - items.length) none)
    else none
  | .object members => do
    let members ← members? members
    if names.all fun name => (members.filter fun m => m.1 = name).length ≤ 1 then
      some (names.map fun name => members.lookup name)
    else none
  | _ => none

/-- A field that may be missing. -/
def optional {α : Type} (missing : α) (read : Json → Option α) : Option Json → Option α
  | none => some missing
  | some json => read json

/-- A field that has to be given. -/
def required {α : Type} (read : Json → Option α) (field : Option Json) : Option α :=
  field.bind read

end Json

end BlindArena
