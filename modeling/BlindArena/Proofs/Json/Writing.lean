import BlindArena.Proofs.Json.Spelling

/-!
# Values as they are written

The written form of a value is one of its spellings, unless a numeral in it is none. Strings are
spelled whatever they hold: a character that may not stand for itself is escaped.
-/

namespace BlindArena
namespace Token

/-! ## Strings -/

/-- A digit in the sixteens is read back. -/
theorem hexDigit?_digitChar : ∀ d < 16, hexDigit? (Nat.digitChar d) = some d := by decide

/-- A control character is the character of its code. -/
theorem pieceOfCode_of_control {c : Char} (h : c.toNat < 32) : pieceOfCode c.toNat = .char c := by
  have hlow : ¬ 0xd800 ≤ c.toNat := by omega
  simp [pieceOfCode, hlow]

theorem spelled_escapeChar (c : Char) : (Piece.char c).Spelled (Json.escapeChar c) := by
  unfold Json.escapeChar
  split
  case h_8 hquote hescape _ _ _ _ _ =>
    by_cases hcontrol : c.toNat < 32
    · rw [if_pos hcontrol, ← pieceOfCode_of_control hcontrol]
      refine .code ?_
      have hhigh := hexDigit?_digitChar (c.toNat / 16) (by omega)
      have hlow := hexDigit?_digitChar (c.toNat % 16) (by omega)
      have hzero : hexDigit? '0' = some 0 := rfl
      have hcode : c.toNat / 16 * 16 + c.toNat % 16 = c.toNat := by omega
      simp [hex?, hhigh, hlow, hzero, hcode]
    · rw [if_neg hcontrol]
      exact .plain c (by omega) hquote hescape
  all_goals exact .letter rfl

theorem row_escapeChar (cs : List Char) : Row (cs.map .char) (cs.flatMap Json.escapeChar) := by
  induction cs with
  | nil => exact .nil
  | cons c cs ih => exact .cons (spelled_escapeChar c) ih

theorem join?_char (cs : List Char) : join? (cs.map .char) = some cs := by
  induction cs with
  | nil => rfl
  | cons c cs ih => simp [join?, ih]

/-- A text is quoted as it is, the want of one as half a pair of surrogates. -/
theorem lexeme_quote (text : Option String) : Lexeme (.string text) (Json.quote text) := by
  cases text with
  | none =>
    have hhalf : (pieceOfCode 0xd800).Spelled ['\\', 'u', 'd', '8', '0', '0'] := .code rfl
    exact .string (.cons hhalf .nil)
  | some text =>
    have h := Lexeme.string (row_escapeChar text.toList)
    rwa [join?_char, Option.map_some, String.ofList_toList] at h

/-! ## Tokens side by side -/

theorem Spread.single {t : Token} {lexeme : List Char} (h : Lexeme t lexeme) :
    Spread [t] lexeme := by
  have hsingle := Spread.cons (List.forall_mem_nil _) h (.nil (List.forall_mem_nil _))
  rwa [List.nil_append, List.append_nil] at hsingle

theorem Spread.blank {ts : List Token} {blank cs : List Char} (hblank : Blank blank)
    (h : Spread ts cs) : Spread ts (blank ++ cs) := by
  cases h with
  | nil hmore => exact .nil (List.forall_mem_append.2 ⟨hblank, hmore⟩)
  | cons hmore hlexeme hlater =>
    rw [← List.append_assoc, ← List.append_assoc]
    exact .cons (List.forall_mem_append.2 ⟨hblank, hmore⟩) hlexeme hlater

theorem Spread.append {ts us : List Token} {cs ds : List Char} (h : Spread ts cs)
    (hlater : Spread us ds) : Spread (ts ++ us) (cs ++ ds) := by
  induction h with
  | nil hblank => exact hlater.blank hblank
  | cons hblank hlexeme _ ih =>
    rw [List.cons_append, List.append_assoc]
    exact .cons hblank hlexeme ih

theorem spread_commaSeparated {tss : List (List Token)} {css : List (List Char)}
    (h : List.Forall₂ Spread tss css) :
    Spread ([.comma].intercalate tss) (Json.commaSeparated css) := by
  induction h with
  | nil => exact .nil (List.forall_mem_nil _)
  | @cons ts cs tss css hfirst hrest ih =>
    cases hrest with
    | nil =>
      rw [List.intercalate_singleton]
      exact hfirst
    | cons =>
      rw [List.intercalate_cons_cons, List.append_assoc]
      exact hfirst.append ((Spread.single .comma).append ih)

end Token

namespace Json
open Token

/-- Every numeral in the value is one. -/
inductive Proper : Json → Prop
  | null : Proper .null
  | bool (b : Bool) : Proper (.bool b)
  | number {n : Numeral} (h : Token.Proper n) : Proper (.number n)
  | string (text : Option String) : Proper (.string text)
  | array {items : List Json} (h : ∀ item ∈ items, Proper item) : Proper (.array items)
  | object {members : List (Option String × Json)} (h : ∀ member ∈ members, Proper member.2) :
      Proper (.object members)

theorem forall₂_itemLists {items : List Json}
    (h : ∀ item ∈ items, Spread item.tokens item.toList) :
    List.Forall₂ Spread (itemTokens items) (itemLists items) := by
  induction items with
  | nil => exact .nil
  | cons item items ih =>
    rw [List.forall_mem_cons] at h
    exact .cons h.1 (ih h.2)

theorem forall₂_memberLists {members : List (Option String × Json)}
    (h : ∀ member ∈ members, Spread member.2.tokens member.2.toList) :
    List.Forall₂ Spread (memberTokens members) (memberLists members) := by
  induction members with
  | nil => exact .nil
  | cons member members ih =>
    obtain ⟨key, value⟩ := member
    rw [List.forall_mem_cons] at h
    refine .cons ?_ (ih h.2)
    exact (Spread.single (lexeme_quote key)).append ((Spread.single .colon).append h.1)

theorem spread_toList {json : Json} (h : json.Proper) : Spread json.tokens json.toList := by
  induction h with
  | null => exact .single .null
  | bool b =>
    cases b with
    | false => exact .single .false
    | true => exact .single .true
  | number h => exact .single (.number h)
  | string text => exact .single (lexeme_quote text)
  | array _ ih =>
    have hitems := spread_commaSeparated (forall₂_itemLists ih)
    exact (Spread.single .leftBracket).append (hitems.append (Spread.single .rightBracket))
  | object _ ih =>
    have hmembers := spread_commaSeparated (forall₂_memberLists ih)
    exact (Spread.single .leftBrace).append (hmembers.append (Spread.single .rightBrace))

theorem spells_render {json : Json} (h : json.Proper) : Spells json.render json := by
  rw [Spells, render, String.toList_ofList]
  exact spread_toList h

/-- What is written is read. -/
theorem parse?_render {json : Json} (h : json.Proper) : parse? json.render = some json :=
  parse?_of_spells (spells_render h)

end Json
end BlindArena
