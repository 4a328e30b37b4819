import BlindArena.Decimal.Numeral

/-!
# JSON tokens

A text is cut into tokens from the left. Between tokens only space, tab, line feed and carriage
return are skipped. A text with anything that starts no token has no tokens at all.
-/

namespace BlindArena

inductive Token where
  | leftBracket | rightBracket | leftBrace | rightBrace | comma | colon
  | null
  | bool (b : Bool)
  | number (n : Numeral)
  | string (text : Option String)
  deriving DecidableEq

namespace Token

def isBlank (c : Char) : Bool := c = ' ' || c = '\t' || c = '\n' || c = '\r'

/-! ## Strings -/

/-- One element of a string: a character, or half of a surrogate pair. -/
inductive Piece where
  | char (c : Char)
  | half (code : Nat)
  deriving DecidableEq

/-- The code of a surrogate pair, if the two halves make one. -/
def pair? (high low : Nat) : Option Char :=
  if high < 0xdc00 && 0xdc00 ≤ low then
    some (Char.ofNat (0x10000 + (high - 0xd800) * 0x400 + (low - 0xdc00)))
  else none

/-- Halves are joined with their neighbours; a half that stands alone spoils the text. -/
def join? : List Piece → Option (List Char)
  | [] => some []
  | .char c :: rest => (join? rest).map (c :: ·)
  | .half high :: .half low :: rest => do
    let c ← pair? high low
    let cs ← join? rest
    some (c :: cs)
  | .half _ :: _ => none

def hexDigit? (c : Char) : Option Nat :=
  if '0' ≤ c && c ≤ '9' then some (c.toNat - 48)
  else if 'a' ≤ c && c ≤ 'f' then some (c.toNat - 87)
  else if 'A' ≤ c && c ≤ 'F' then some (c.toNat - 55)
  else none

def hex? (a b c d : Char) : Option Nat := do
  let a ← hexDigit? a
  let b ← hexDigit? b
  let c ← hexDigit? c
  let d ← hexDigit? d
  some (((a * 16 + b) * 16 + c) * 16 + d)

def pieceOfCode (code : Nat) : Piece :=
  if 0xd800 ≤ code && code < 0xe000 then .half code else .char (Char.ofNat code)

def escape? : Char → Option Char
  | '"' => some '"'
  | '\\' => some '\\'
  | '/' => some '/'
  | 'b' => some '\x08'
  | 'f' => some '\x0c'
  | 'n' => some '\n'
  | 'r' => some '\r'
  | 't' => some '\t'
  | _ => none

/-- The pieces up to the closing quote, before the ones already read, and what follows the quote.
Control characters must be escaped. -/
def pieces (done : List Piece) : List Char → Option (List Piece × List Char)
  | [] => none
  | '"' :: rest => some (done.reverse, rest)
  | '\\' :: 'u' :: a :: b :: c :: d :: rest =>
    match hex? a b c d with
    | some code => pieces (pieceOfCode code :: done) rest
    | none => none
  | '\\' :: e :: rest =>
    match escape? e with
    | some c => pieces (.char c :: done) rest
    | none => none
  | c :: rest => if c.toNat < 32 || c = '\\' then none else pieces (.char c :: done) rest

/-! ## Numbers -/

/-- A sign before the digits is cut off. -/
def cutSign (sign : Char → Bool) : List Char → List Char × List Char
  | c :: rest => if sign c then ([c], rest) else ([], c :: rest)
  | [] => ([], [])

def cutDigits (cs : List Char) : List Char × List Char :=
  (cs.takeWhile Char.isDigit, cs.dropWhile Char.isDigit)

/-- A point and at least one digit, or nothing. -/
def fraction? : List Char → Option (List Char × List Char)
  | '.' :: rest =>
    let (digits, rest) := cutDigits rest
    if digits.isEmpty then none else some ('.' :: digits, rest)
  | cs => some ([], cs)

/-- A mark, perhaps a sign, and at least one digit, or nothing. -/
def exponent? : List Char → Option (List Char × List Char)
  | c :: rest =>
    if c = 'e' || c = 'E' then
      let (sign, rest) := cutSign (fun c => c = '+' || c = '-') rest
      let (digits, rest) := cutDigits rest
      if digits.isEmpty then none else some (c :: sign ++ digits, rest)
    else some ([], c :: rest)
  | [] => some ([], [])

/-- Digits without a needless zero in front. -/
def whole? (digits : List Char) : Option Nat :=
  match digits with
  | [] => none
  | ['0'] => some 0
  | '0' :: _ => none
  | digits => some (Nat.ofDigitChars 10 digits 0)

def number? (cs : List Char) : Option (Numeral × List Char) := do
  let (sign, rest) := cutSign (· = '-') cs
  let (digits, rest) := cutDigits rest
  let whole ← whole? digits
  let (fraction, rest) ← fraction? rest
  let (exponent, rest) ← exponent? rest
  some (⟨!sign.isEmpty, whole, fraction ++ exponent⟩, rest)

/-! ## Texts -/

/-- The token at the front, which is not blank, and what follows it. -/
def next? : List Char → Option (Token × List Char)
  | '[' :: rest => some (.leftBracket, rest)
  | ']' :: rest => some (.rightBracket, rest)
  | '\x7b' :: rest => some (.leftBrace, rest)
  | '\x7d' :: rest => some (.rightBrace, rest)
  | ',' :: rest => some (.comma, rest)
  | ':' :: rest => some (.colon, rest)
  | 'n' :: 'u' :: 'l' :: 'l' :: rest => some (.null, rest)
  | 't' :: 'r' :: 'u' :: 'e' :: rest => some (.bool true, rest)
  | 'f' :: 'a' :: 'l' :: 's' :: 'e' :: rest => some (.bool false, rest)
  | '"' :: rest =>
    (pieces [] rest).map fun (ps, rest) => (.string ((join? ps).map String.ofList), rest)
  | cs => (number? cs).map fun (n, rest) => (.number n, rest)

/-! ### Every token takes something off the text -/

theorem length_dropWhile_le {α : Type} (p : α → Bool) (l : List α) :
    (l.dropWhile p).length ≤ l.length := (List.dropWhile_sublist p).length_le

theorem length_of_pieces {done ps : List Piece} {cs rest : List Char}
    (h : pieces done cs = some (ps, rest)) : rest.length < cs.length := by
  fun_induction pieces done cs <;> grind [List.length_cons]

theorem length_of_cutSign {sign : Char → Bool} {cs : List Char} :
    (cutSign sign cs).2.length ≤ cs.length := by
  cases cs with
  | nil => simp [cutSign]
  | cons c rest => simp only [cutSign]; split <;> simp

theorem length_of_fraction? {cs text rest : List Char} (h : fraction? cs = some (text, rest)) :
    rest.length ≤ cs.length := by
  unfold fraction? cutDigits at h
  have := length_dropWhile_le Char.isDigit
  grind [List.length_cons]

theorem length_of_exponent? {cs text rest : List Char} (h : exponent? cs = some (text, rest)) :
    rest.length ≤ cs.length := by
  unfold exponent? cutDigits at h
  have := length_dropWhile_le Char.isDigit
  have := fun cs => @length_of_cutSign (fun c => c = '+' || c = '-') cs
  grind [List.length_cons]

theorem length_of_number? {cs rest : List Char} {n : Numeral} (h : number? cs = some (n, rest)) :
    rest.length < cs.length := by
  simp only [number?, cutDigits, Option.bind_eq_bind, Option.bind_eq_some_iff] at h
  obtain ⟨whole, hw, ⟨fraction, r₁⟩, h₁, ⟨exponent, r₂⟩, h₂, h⟩ := h
  simp only [Option.some.injEq, Prod.mk.injEq] at h
  obtain ⟨-, rfl⟩ := h
  have := @length_of_cutSign (· = '-') cs
  have := length_of_fraction? h₁
  have := length_of_exponent? h₂
  have hd : ((cutSign (· = '-') cs).2.takeWhile Char.isDigit) ≠ [] := by
    intro e
    simp [e, whole?] at hw
  have := List.takeWhile_append_dropWhile (p := Char.isDigit) (l := (cutSign (· = '-') cs).2)
  have := congrArg List.length this
  have := List.length_pos_iff.2 hd
  simp only [List.length_append] at *
  omega

theorem length_of_next? {cs rest : List Char} {t : Token} (h : next? cs = some (t, rest)) :
    rest.length < cs.length := by
  unfold next? at h
  split at h <;> grind [→ length_of_pieces, → length_of_number?, Option.map_eq_some_iff]

/-- The tokens of a text, after the ones already read. -/
def tokens? (done : List Token) (cs : List Char) : Option (List Token) :=
  match cs.dropWhile isBlank, length_dropWhile_le isBlank cs with
  | [], _ => some done.reverse
  | c :: cs', le =>
    match h : next? (c :: cs') with
    | none => none
    | some (t, rest) =>
      have : rest.length < cs.length := Nat.lt_of_lt_of_le (length_of_next? h) le
      tokens? (t :: done) rest
termination_by cs.length

def ofString? (text : String) : Option (List Token) := tokens? [] text.toList

end Token

end BlindArena
