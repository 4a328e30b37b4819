import BlindArena.Json.Token
import Mathlib.Data.List.Chain

/-!
# How tokens are spelled

The grammar of tokens, apart from the way they are cut off a text: a numeral has a fraction and an
exponent or does without, a string is a row of characters and escapes between quotes. Tokens may be
spread over a text with blanks before, between and after them. However they are spelled, they are
read back, provided that a numeral stands before a comma, a closing bracket or the end.
-/

namespace BlindArena
namespace Token

def Digits (cs : List Char) : Prop := cs ≠ [] ∧ ∀ c ∈ cs, c.isDigit

inductive Fraction : List Char → Prop
  | none : Fraction []
  | point {digits : List Char} (h : Digits digits) : Fraction ('.' :: digits)

inductive Exponent : List Char → Prop
  | none : Exponent []
  | mark {mark : Char} {sign digits : List Char} (hmark : mark = 'e' ∨ mark = 'E')
      (hsign : sign = [] ∨ sign = ['+'] ∨ sign = ['-']) (h : Digits digits) :
      Exponent (mark :: sign ++ digits)

/-- The tail is a fraction and an exponent. -/
def Proper (n : Numeral) : Prop :=
  ∃ fraction exponent, Fraction fraction ∧ Exponent exponent ∧ n.tail = fraction ++ exponent

theorem proper_ofInt (x : Int) : Proper (.ofInt x) := ⟨[], [], .none, .none, rfl⟩

/-- A character may stand for itself unless it is a quote, a backslash or a control character. -/
inductive Piece.Spelled : Piece → List Char → Prop
  | plain (c : Char) (hcontrol : 32 ≤ c.toNat) (hquote : c ≠ '"') (hescape : c ≠ '\\') :
      Spelled (.char c) [c]
  | letter {e c : Char} (h : escape? e = some c) : Spelled (.char c) ['\\', e]
  | code {a b c d : Char} {code : Nat} (h : hex? a b c d = some code) :
      Spelled (pieceOfCode code) ['\\', 'u', a, b, c, d]

inductive Row : List Piece → List Char → Prop
  | nil : Row [] []
  | cons {p : Piece} {ps : List Piece} {cs rest : List Char} (h : p.Spelled cs)
      (later : Row ps rest) : Row (p :: ps) (cs ++ rest)

/-- The spellings of a token. -/
inductive Lexeme : Token → List Char → Prop
  | leftBracket : Lexeme .leftBracket ['[']
  | rightBracket : Lexeme .rightBracket [']']
  | leftBrace : Lexeme .leftBrace ['\x7b']
  | rightBrace : Lexeme .rightBrace ['\x7d']
  | comma : Lexeme .comma [',']
  | colon : Lexeme .colon [':']
  | null : Lexeme .null ['n', 'u', 'l', 'l']
  | true : Lexeme (.bool .true) ['t', 'r', 'u', 'e']
  | false : Lexeme (.bool .false) ['f', 'a', 'l', 's', 'e']
  | number {n : Numeral} (h : Proper n) : Lexeme (.number n) n.toList
  | string {ps : List Piece} {cs : List Char} (h : Row ps cs) :
      Lexeme (.string ((join? ps).map String.ofList)) ('"' :: cs ++ ['"'])

def Blank (cs : List Char) : Prop := ∀ c ∈ cs, isBlank c

/-- A text that spells these tokens. -/
inductive Spread : List Token → List Char → Prop
  | nil {blank : List Char} (h : Blank blank) : Spread [] blank
  | cons {t : Token} {ts : List Token} {blank lexeme rest : List Char} (hblank : Blank blank)
      (hlexeme : Lexeme t lexeme) (later : Spread ts rest) :
      Spread (t :: ts) (blank ++ lexeme ++ rest)

/-- Where a numeral may stand: nothing that follows could be taken for a part of it. -/
def Ends (rest : List Char) : Prop :=
  ∀ c ∈ rest.head?, c.isDigit = false ∧ c ≠ '.' ∧ c ≠ 'e' ∧ c ≠ 'E'

/-! ## Numerals -/

section numerals
variable {n : Numeral} {cs digits fraction exponent rest : List Char}

theorem cutDigits_append (hdigits : ∀ c ∈ digits, c.isDigit)
    (hrest : ∀ c ∈ rest.head?, c.isDigit = false) :
    cutDigits (digits ++ rest) = (digits, rest) := by
  have htake : rest.takeWhile Char.isDigit = [] := by
    cases rest with
    | nil => rfl
    | cons c rest => simp [hrest c rfl]
  have hdrop : rest.dropWhile Char.isDigit = rest := by
    cases rest with
    | nil => rfl
    | cons c rest => simp [hrest c rfl]
  rw [cutDigits, List.takeWhile_append_of_pos hdigits, List.dropWhile_append_of_pos hdigits, htake,
    hdrop, List.append_nil]

theorem fraction?_append (h : Fraction fraction)
    (hrest : ∀ c ∈ rest.head?, c.isDigit = false ∧ c ≠ '.') :
    fraction? (fraction ++ rest) = some (fraction, rest) := by
  cases h with
  | none =>
    cases rest with
    | nil => rfl
    | cons c rest =>
      have hpoint := (hrest c rfl).2
      simp only [List.nil_append]
      unfold fraction?
      split
      · rename_i heq
        exact absurd (List.cons.inj heq).1 hpoint
      · rfl
  | @point digits hdigits =>
    have hne : digits.isEmpty = false := by simpa using hdigits.1
    simp [fraction?, cutDigits_append hdigits.2 fun c hc => (hrest c hc).1, hne]

theorem cutSign_append {sign : List Char} {p : Char → Bool}
    (hsign : sign = [] ∨ ∃ c, sign = [c] ∧ p c) (hrest : ∀ c ∈ rest.head?, p c = false) :
    cutSign p (sign ++ rest) = (sign, rest) := by
  rcases hsign with rfl | ⟨c, rfl, hc⟩
  · cases rest with
    | nil => rfl
    | cons c rest => simp [cutSign, hrest c rfl]
  · simp [cutSign, hc]

theorem ne_sign_of_isDigit {c : Char} (h : c.isDigit) : c ≠ '+' ∧ c ≠ '-' := by
  constructor
  · rintro rfl
    exact absurd h (by decide)
  · rintro rfl
    exact absurd h (by decide)

theorem Digits.head {digits : List Char} (h : Digits digits) (rest : List Char) :
    ∃ c, (digits ++ rest).head? = some c ∧ c.isDigit := by
  obtain ⟨hne, hdigits⟩ := h
  cases digits with
  | nil => exact absurd rfl hne
  | cons c digits => exact ⟨c, rfl, hdigits c List.mem_cons_self⟩

theorem exponent?_append (h : Exponent exponent) (hrest : Ends rest) :
    exponent? (exponent ++ rest) = some (exponent, rest) := by
  cases h with
  | none =>
    cases rest with
    | nil => rfl
    | cons c rest =>
      obtain ⟨-, -, he, hE⟩ := hrest c rfl
      simp [exponent?, he, hE]
  | @mark mark sign digits hmark hsign hdigits =>
    have hne : digits.isEmpty = false := by simpa using hdigits.1
    have hsigned : cutSign (fun c => c = '+' || c = '-') (sign ++ (digits ++ rest)) =
        (sign, digits ++ rest) := by
      refine cutSign_append ?_ fun c hc => ?_
      · rcases hsign with rfl | rfl | rfl
        · exact .inl rfl
        · exact .inr ⟨_, rfl, rfl⟩
        · exact .inr ⟨_, rfl, rfl⟩
      · obtain ⟨head, hhead, hdigit⟩ := hdigits.head rest
        obtain rfl := Option.some.inj (hhead.symm.trans hc)
        obtain ⟨hplus, hminus⟩ := ne_sign_of_isDigit hdigit
        simp [hplus, hminus]
    have hcut := cutDigits_append hdigits.2 fun c hc => (hrest c hc).1
    have hmarked : (decide (mark = 'e') || decide (mark = 'E')) = true := by simpa using hmark
    simp only [List.cons_append, List.append_assoc, exponent?, hmarked, if_true, hsigned, hcut, hne,
      Bool.false_eq_true, if_false]

/-- The digits of a number that is not zero begin with another digit. -/
theorem head_toDigits {whole : Nat} (h : whole ≠ 0) :
    ∃ c digits, Nat.toDigits 10 whole = c :: digits ∧ c ≠ '0' := by
  induction whole using Nat.strongRecOn with
  | ind whole ih =>
    rw [Nat.toDigits_eq_if (by omega)]
    by_cases hsmall : whole < 10
    · rw [if_pos hsmall]
      refine ⟨_, [], rfl, ?_⟩
      have hall : ∀ d < 10, d ≠ 0 → Nat.digitChar d ≠ '0' := by decide
      exact hall whole hsmall h
    · rw [if_neg hsmall]
      obtain ⟨c, digits, hdigits, hc⟩ := ih (whole / 10) (by omega) (by omega)
      exact ⟨c, _, by rw [hdigits, List.cons_append], hc⟩

theorem whole?_toDigits (whole : Nat) : whole? (Nat.toDigits 10 whole) = some whole := by
  by_cases hzero : whole = 0
  · rw [hzero]
    rfl
  · obtain ⟨c, digits, hdigits, hc⟩ := head_toDigits hzero
    have hback : Nat.ofDigitChars 10 (c :: digits) 0 = whole := by
      rw [← hdigits]
      exact Nat.ofDigitChars_toDigits (by omega) (by omega)
    rw [hdigits]
    unfold whole?
    split
    · rename_i heq
      cases heq
    · rename_i heq
      exact absurd (List.cons.inj heq).1 hc
    · rename_i heq
      exact absurd (List.cons.inj heq).1 hc
    · rw [hback]

theorem head_exponent (h : Exponent exponent) (hrest : Ends rest) :
    ∀ c ∈ (exponent ++ rest).head?, c.isDigit = false ∧ c ≠ '.' := by
  cases h with
  | none => exact fun c hc => ⟨(hrest c hc).1, (hrest c hc).2.1⟩
  | mark hmark =>
    rintro c ⟨⟩
    rcases hmark with rfl | rfl <;> decide

theorem head_fraction (h : Fraction fraction) (hrest : ∀ c ∈ rest.head?, c.isDigit = false) :
    ∀ c ∈ (fraction ++ rest).head?, c.isDigit = false := by
  cases h with
  | none => exact hrest
  | point =>
    rintro c ⟨⟩
    decide

theorem cutSign_minus (negative : Bool) (h : Digits digits) (rest : List Char) :
    cutSign (· = '-') ((if negative then ['-'] else []) ++ (digits ++ rest)) =
      (if negative then ['-'] else [], digits ++ rest) := by
  refine cutSign_append ?_ fun c hc => ?_
  · cases negative with
    | false => exact .inl rfl
    | true => exact .inr ⟨'-', rfl, rfl⟩
  · obtain ⟨head, hhead, hdigit⟩ := h.head rest
    obtain rfl := Option.some.inj (hhead.symm.trans hc)
    simp [(ne_sign_of_isDigit hdigit).2]

theorem number?_append (h : Proper n) (hrest : Ends rest) :
    number? (n.toList ++ rest) = some (n, rest) := by
  obtain ⟨fraction, exponent, hfraction, hexponent, htail⟩ := h
  have hdigits : Digits (Nat.toDigits 10 n.whole) :=
    ⟨Nat.toDigits_ne_nil, fun c hc => Nat.isDigit_of_mem_toDigits (by omega) (by omega) hc⟩
  have hmarked := head_exponent hexponent hrest
  have hpointed := head_fraction hfraction fun c hc => (hmarked c hc).1
  have hsign := cutSign_minus n.negative hdigits (fraction ++ (exponent ++ rest))
  have hnegative : (!(if n.negative then ['-'] else []).isEmpty) = n.negative := by
    cases n.negative <;> rfl
  rw [Numeral.toList, htail, List.append_assoc, List.append_assoc, List.append_assoc, number?]
  simp only [hsign, cutDigits_append hdigits.2 hpointed, whole?_toDigits,
    fraction?_append hfraction hmarked, exponent?_append hexponent hrest, hnegative,
    Option.bind_eq_bind, Option.bind_some, ← htail]

end numerals

/-! ## Strings -/

theorem pieces_append {ps : List Piece} {cs : List Char} (h : Row ps cs) (done : List Piece)
    (rest : List Char) : pieces done (cs ++ '"' :: rest) = some (done.reverse ++ ps, rest) := by
  induction h generalizing done with
  | nil => simp [pieces]
  | @cons p ps cs later hp _ ih =>
    have hlater := ih (p :: done)
    simp only [List.reverse_cons, List.append_assoc, List.singleton_append] at hlater
    rw [List.append_assoc, ← hlater]
    cases hp with
    | plain c hcontrol hquote hescape =>
      -- none of the earlier patterns of `pieces` fits
      have hplain : (decide (c.toNat < 32) || decide (c = '\\')) = false := by
        simp [hescape, Nat.not_lt.2 hcontrol]
      rw [List.singleton_append, pieces]
      · simp only [hplain, Bool.false_eq_true, if_false]
      · exact hquote
      · exact fun _ _ _ _ _ heq => absurd heq hescape
      · exact fun _ _ heq => absurd heq hescape
    | @letter e c hletter =>
      have hu : e ≠ 'u' := by
        rintro rfl
        cases hletter
      rw [List.cons_append, List.singleton_append, pieces]
      · simp only [hletter]
      · exact fun _ _ _ _ _ heq => absurd heq hu
    | code hcode =>
      simp only [List.cons_append, List.nil_append, pieces, hcode]

/-! ## Tokens -/

/-- A numeral begins with a digit or with the sign. -/
theorem head_numeral (n : Numeral) :
    ∃ c rest, n.toList = c :: rest ∧ (c.isDigit ∨ c = '-') := by
  by_cases hnegative : n.negative = true
  · exact ⟨'-', Nat.toDigits 10 n.whole ++ n.tail, by rw [Numeral.toList, if_pos hnegative]; rfl,
      .inr rfl⟩
  · cases hdigits : Nat.toDigits 10 n.whole with
    | nil => exact absurd hdigits Nat.toDigits_ne_nil
    | cons c digits =>
      have hdigit : c.isDigit := Nat.isDigit_of_mem_toDigits (b := 10) (n := n.whole) (by omega)
        (by omega) (hdigits ▸ List.mem_cons_self)
      refine ⟨c, digits ++ n.tail, ?_, .inl hdigit⟩
      rw [Numeral.toList, if_neg hnegative, hdigits]
      rfl

/-- Nothing but a numeral begins so. -/
theorem next?_of_head {c : Char} (h : c.isDigit ∨ c = '-') (rest : List Char) :
    next? (c :: rest) = (number? (c :: rest)).map fun (n, rest) => (.number n, rest) := by
  unfold next?
  split
  case h_11 => rfl
  all_goals
    rename_i heq
    obtain rfl := (List.cons.inj heq).1
    exact absurd h (by decide)

theorem next?_append {t : Token} {lexeme rest : List Char} (h : Lexeme t lexeme)
    (hrest : ∀ n, t = .number n → Ends rest) : next? (lexeme ++ rest) = some (t, rest) := by
  cases h with
  | leftBracket | rightBracket | leftBrace | rightBrace | comma | colon | null | true | false => rfl
  | @number n hproper =>
    have hnumber := number?_append hproper (hrest n rfl)
    obtain ⟨c, later, hlist, hhead⟩ := head_numeral n
    rw [hlist, List.cons_append] at hnumber ⊢
    rw [next?_of_head hhead, hnumber]
    rfl
  | @string ps cs hrow =>
    have hpieces := pieces_append hrow [] rest
    simp only [List.cons_append, List.append_assoc, List.nil_append, next?, hpieces]
    rfl

theorem head_lexeme {t : Token} {lexeme : List Char} (h : Lexeme t lexeme) :
    ∃ c rest, lexeme = c :: rest ∧ isBlank c = false := by
  cases h with
  | number =>
    rename_i n _
    obtain ⟨c, rest, hlist, hhead⟩ := head_numeral n
    refine ⟨c, rest, hlist, ?_⟩
    rw [← Bool.not_eq_true]
    intro hblank
    simp only [isBlank, Bool.or_eq_true, decide_eq_true_eq] at hblank
    rcases hblank with ((rfl | rfl) | rfl) | rfl <;> exact absurd hhead (by decide)
  | string => exact ⟨'"', _, rfl, rfl⟩
  | leftBracket | rightBracket | leftBrace | rightBrace | comma | colon | null | true | false =>
    exact ⟨_, _, rfl, rfl⟩

/-! ## Texts -/

theorem dropWhile_blank {blank : List Char} (h : Blank blank) (rest : List Char) :
    (blank ++ rest).dropWhile isBlank = rest.dropWhile isBlank :=
  List.dropWhile_append_of_pos h

theorem tokens?_of_blank {blank : List Char} (h : Blank blank) (done : List Token) :
    tokens? done blank = some done.reverse := by
  have hnone : blank.dropWhile isBlank = [] := by
    have hdrop := dropWhile_blank h []
    rwa [List.append_nil] at hdrop
  rw [tokens?]
  split
  · rfl
  · rename_i heq _
    rw [hnone] at heq
    cases heq

theorem tokens?_of_next {t : Token} {cs lexeme rest : List Char} {done : List Token}
    (hdrop : cs.dropWhile isBlank = lexeme) (hne : lexeme ≠ [])
    (hnext : next? lexeme = some (t, rest)) : tokens? done cs = tokens? (t :: done) rest := by
  rw [tokens?]
  split
  · rename_i heq _
    exact absurd (hdrop.symm.trans heq) hne
  · rename_i c cs' heq _
    obtain rfl := hdrop.symm.trans heq
    split
    · rename_i hfailed
      rw [hfailed] at hnext
      cases hnext
    · rename_i t' rest' hnext'
      rw [hnext'] at hnext
      cases hnext
      rfl

/-- What may follow a token: a numeral stands before a comma or a closing bracket. -/
def Before (t u : Token) : Prop :=
  ∀ n, t = .number n → u = .comma ∨ u = .rightBracket ∨ u = .rightBrace

/-- A token that may follow a numeral ends it, and so does a blank. -/
theorem ends_of_spread {n : Numeral} {ts : List Token} {rest : List Char} (h : Spread ts rest)
    (hbefore : ∀ u ∈ ts.head?, Before (.number n) u) : Ends rest := by
  have hblank (c : Char) (hc : isBlank c) :
      c.isDigit = false ∧ c ≠ '.' ∧ c ≠ 'e' ∧ c ≠ 'E' := by
    simp only [isBlank, Bool.or_eq_true, decide_eq_true_eq] at hc
    rcases hc with ((rfl | rfl) | rfl) | rfl <;> decide
  cases h with
  | nil hall =>
    intro c hc
    exact hblank c (hall c (List.mem_of_mem_head? hc))
  | @cons u ts blank lexeme rest hall hlexeme _ =>
    intro c hc
    cases blank with
    | cons b blank =>
      obtain rfl := Option.some.inj hc
      exact hblank b (hall b List.mem_cons_self)
    | nil =>
      have hu := hbefore u rfl n rfl
      rcases hu with rfl | rfl | rfl <;> cases hlexeme <;> obtain rfl := Option.some.inj hc <;>
        decide

theorem tokens?_of_spread {ts : List Token} {cs : List Char} (h : Spread ts cs)
    (hchain : ts.IsChain Before) (done : List Token) :
    tokens? done cs = some (done.reverse ++ ts) := by
  induction h generalizing done with
  | nil hblank => rw [tokens?_of_blank hblank, List.append_nil]
  | @cons t ts blank lexeme rest hblank hlexeme hlater ih =>
    rw [List.isChain_cons] at hchain
    obtain ⟨c, lexeme', rfl, hhead⟩ := head_lexeme hlexeme
    have hdrop : (blank ++ c :: lexeme' ++ rest).dropWhile isBlank = c :: lexeme' ++ rest := by
      rw [List.append_assoc, dropWhile_blank hblank, List.cons_append, List.dropWhile_cons, hhead]
      rfl
    have hnext : next? (c :: lexeme' ++ rest) = some (t, rest) := by
      refine next?_append hlexeme ?_
      -- only a numeral could go on into what follows it
      rintro n rfl
      exact ends_of_spread hlater hchain.1
    rw [tokens?_of_next hdrop (by simp) hnext, ih hchain.2]
    simp

end Token
end BlindArena
