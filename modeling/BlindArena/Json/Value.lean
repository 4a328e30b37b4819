import BlindArena.Decimal.Numeral

/-!
# JSON values

A value keeps its members in the order they are written, repeated keys included, and its numbers as
they are spelled. A string that pairs its surrogates wrongly has no text; it is still a value.

The written form is compact. Quotes, backslashes and control characters are escaped, the common
controls by a letter and the others by four hexadecimal digits; every other character stands for
itself.
-/

namespace BlindArena

inductive Json where
  | null
  | bool (b : Bool)
  | number (n : Numeral)
  | string (text : Option String)
  | array (items : List Json)
  | object (members : List (Option String × Json))

namespace Json

def text (s : String) : Json := .string (some s)

def int (x : Int) : Json := .number (.ofInt x)

def nat (n : Nat) : Json := int n

def word (w : UInt64) : Json := nat w.toNat

def record (fields : List (String × Json)) : Json :=
  .object (fields.map fun (key, value) => (some key, value))

def nullable {α : Type} (write : α → Json) : Option α → Json
  | none => .null
  | some a => write a

def escapeChar (c : Char) : List Char :=
  match c with
  | '"' => ['\\', '"']
  | '\\' => ['\\', '\\']
  | '\x08' => ['\\', 'b']
  | '\x0c' => ['\\', 'f']
  | '\n' => ['\\', 'n']
  | '\r' => ['\\', 'r']
  | '\t' => ['\\', 't']
  | c =>
    if c.toNat < 32 then
      ['\\', 'u', '0', '0', Nat.digitChar (c.toNat / 16), Nat.digitChar (c.toNat % 16)]
    else [c]

/-- A string without text is written as a surrogate that stands alone. -/
def quote : Option String → List Char
  | some s => '"' :: s.toList.flatMap escapeChar ++ ['"']
  | none => ['"', '\\', 'u', 'd', '8', '0', '0', '"']

def commaSeparated : List (List Char) → List Char
  | [] => []
  | [item] => item
  | item :: rest => item ++ ',' :: commaSeparated rest

mutual

def toList : Json → List Char
  | .null => ['n', 'u', 'l', 'l']
  | .bool true => ['t', 'r', 'u', 'e']
  | .bool false => ['f', 'a', 'l', 's', 'e']
  | .number n => n.toList
  | .string s => quote s
  | .array items => '[' :: commaSeparated (itemLists items) ++ [']']
  | .object members => '\x7b' :: commaSeparated (memberLists members) ++ ['\x7d']

def itemLists : List Json → List (List Char)
  | [] => []
  | item :: rest => item.toList :: itemLists rest

def memberLists : List (Option String × Json) → List (List Char)
  | [] => []
  | (key, value) :: rest => (quote key ++ ':' :: value.toList) :: memberLists rest

end

def render (json : Json) : String := String.ofList json.toList

end Json

end BlindArena
