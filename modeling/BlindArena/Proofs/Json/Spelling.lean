import BlindArena.Json.Reader
import BlindArena.Proofs.Json.Lexemes

/-!
# How values are spelled

A value is spelled by its tokens, spread over a text. Each text spells one value at most, and that
is what is read from it, however deep it nests.
-/

namespace BlindArena
namespace Json
open Token

/-- What holds of a container if it holds of everything in it holds of all values. -/
@[elab_as_elim]
theorem ind {P : Json → Prop} (null : P .null) (bool : ∀ b, P (.bool b))
    (number : ∀ n, P (.number n)) (string : ∀ s, P (.string s))
    (array : ∀ items, (∀ item ∈ items, P item) → P (.array items))
    (object : ∀ members, (∀ member ∈ members, P member.2) → P (.object members)) :
    ∀ json, P json
  | .null => null
  | .bool b => bool b
  | .number n => number n
  | .string s => string s
  | .array items => array items fun item _ => ind null bool number string array object item
  | .object members => object members fun member h => by
    have hmember := List.sizeOf_lt_of_mem h
    have hvalue : sizeOf member.2 < sizeOf member := by
      obtain ⟨key, value⟩ := member
      simp only [Prod.mk.sizeOf_spec]
      omega
    have : sizeOf member.2 < 1 + sizeOf members := by omega
    exact ind null bool number string array object member.2

mutual

def tokens : Json → List Token
  | .null => [.null]
  | .bool b => [.bool b]
  | .number n => [.number n]
  | .string s => [.string s]
  | .array items => .leftBracket :: [.comma].intercalate (itemTokens items) ++ [.rightBracket]
  | .object members =>
    .leftBrace :: [.comma].intercalate (memberTokens members) ++ [.rightBrace]

def itemTokens : List Json → List (List Token)
  | [] => []
  | item :: rest => item.tokens :: itemTokens rest

def memberTokens : List (Option String × Json) → List (List Token)
  | [] => []
  | (key, value) :: rest => (.string key :: .colon :: value.tokens) :: memberTokens rest

end

/-- The text spells the value. -/
def Spells (text : String) (json : Json) : Prop := Spread json.tokens text.toList

/-! ## Values are read from their tokens -/

theorem head_tokens (json : Json) :
    ∃ t rest, json.tokens = t :: rest ∧ t ≠ .rightBracket := by
  cases json with
  | null | bool | number | string | array | object => exact ⟨_, _, rfl, by simp⟩

namespace Reader
variable {done items : List Json} {stack : List Frame} {rest : List Token}

theorem run_firstItem (hne : items ≠ []) (rest : List Token) :
    run (.firstItem stack) ([.comma].intercalate (itemTokens items) ++ rest) =
      run (.value (.item [] :: stack)) ([.comma].intercalate (itemTokens items) ++ rest) := by
  obtain ⟨t, later, htokens, hbracket⟩ : ∃ t later,
      [.comma].intercalate (itemTokens items) = t :: later ∧ t ≠ .rightBracket := by
    cases items with
    | nil => exact absurd rfl hne
    | cons item items =>
      obtain ⟨t, later, hitem, hbracket⟩ := head_tokens item
      cases items <;> exact ⟨t, _, by rw [itemTokens, hitem]; rfl, hbracket⟩
  have hstep : step (.firstItem stack) t = step (.value (.item [] :: stack)) t := by
    cases t <;> first | rfl | exact absurd rfl hbracket
  rw [htokens, List.cons_append, run_cons, run_cons, hstep]

theorem run_firstKey {members : List (Option String × Json)} (hne : members ≠ [])
    (rest : List Token) :
    run (.firstKey stack) ([.comma].intercalate (memberTokens members) ++ rest) =
      run (.nextKey [] stack) ([.comma].intercalate (memberTokens members) ++ rest) := by
  cases members with
  | nil => exact absurd rfl hne
  | cons member members => cases members <;> rfl

/-- The value is read off its tokens and given to whatever waits for it. -/
def Reads (json : Json) : Prop :=
  ∀ stack rest, run (.value stack) (json.tokens ++ rest) = run (give json stack) rest

theorem run_items (h : ∀ item ∈ items, Reads item) (hne : items ≠ []) (done : List Json)
    (stack : List Frame) (rest : List Token) :
    run (.value (.item done :: stack))
        ([.comma].intercalate (itemTokens items) ++ .rightBracket :: rest) =
      run (give (.array (done.reverse ++ items)) stack) rest := by
  induction items generalizing done with
  | nil => exact absurd rfl hne
  | cons item items ih =>
    rw [List.forall_mem_cons] at h
    -- what is done is kept last first, and the item joins it
    have hgiven : done.reverse ++ item :: items = (item :: done).reverse ++ items := by simp
    rw [hgiven]
    cases items with
    | nil =>
      rw [itemTokens, itemTokens, List.intercalate_singleton, h.1, List.append_nil]
      rfl
    | cons next items =>
      rw [itemTokens, itemTokens, List.intercalate_cons_cons, List.append_assoc, List.append_assoc,
        h.1, ← ih h.2 (by simp)]
      rfl

theorem run_members {members : List (Option String × Json)}
    (h : ∀ member ∈ members, Reads member.2) (hne : members ≠ [])
    (done : List (Option String × Json)) (stack : List Frame) (rest : List Token) :
    run (.nextKey done stack)
        ([.comma].intercalate (memberTokens members) ++ .rightBrace :: rest) =
      run (give (.object (done.reverse ++ members)) stack) rest := by
  induction members generalizing done with
  | nil => exact absurd rfl hne
  | cons member members ih =>
    obtain ⟨key, value⟩ := member
    rw [List.forall_mem_cons] at h
    have hgiven : done.reverse ++ (key, value) :: members =
        ((key, value) :: done).reverse ++ members := by simp
    have hvalue (later : List Token) :
        run (.nextKey done stack) (.string key :: .colon :: value.tokens ++ later) =
          run (.afterMember ((key, value) :: done) stack) later :=
      h.1 (.member done key :: stack) later
    rw [hgiven]
    cases members with
    | nil =>
      rw [memberTokens, memberTokens, List.intercalate_singleton, hvalue, List.append_nil]
      rfl
    | cons next members =>
      rw [memberTokens, memberTokens, List.intercalate_cons_cons, List.append_assoc,
        List.append_assoc, hvalue, ← ih h.2 (by simp)]
      rfl

theorem reads (json : Json) : Reads json := by
  induction json using Json.ind with
  | null | bool | number | string => exact fun _ _ => rfl
  | array items ih =>
    intro stack rest
    rw [tokens, List.cons_append, List.cons_append, List.append_assoc]
    by_cases hitems : items = []
    · rw [hitems]
      rfl
    · exact (run_firstItem hitems _).trans (run_items ih hitems [] stack rest)
  | object members ih =>
    intro stack rest
    rw [tokens, List.cons_append, List.cons_append, List.append_assoc]
    by_cases hmembers : members = []
    · rw [hmembers]
      rfl
    · exact (run_firstKey hmembers _).trans (run_members ih hmembers [] stack rest)

end Reader

/-! ## Values are read from their spellings -/

theorem before_of_closes {u : Token} (hu : u = .comma ∨ u = .rightBracket ∨ u = .rightBrace)
    (t : Token) : Before t u := fun _ _ => hu

theorem chain_intercalate {parts : List (List Token)} (h : ∀ part ∈ parts, part.IsChain Before) :
    ([.comma].intercalate parts).IsChain Before := by
  induction parts with
  | nil => simp
  | cons part parts ih =>
    rw [List.forall_mem_cons] at h
    cases parts with
    | nil =>
      rw [List.intercalate_singleton]
      exact h.1
    | cons next parts =>
      rw [List.intercalate_cons_cons, List.append_assoc, List.isChain_append]
      refine ⟨h.1, List.isChain_cons.2 ⟨fun t _ n hn => ?_, ih h.2⟩, fun t _ u hu => ?_⟩
      · cases hn
      · obtain rfl := Option.some.inj hu
        exact before_of_closes (.inl rfl) t

theorem chain_enclose {opens closes : Token} {inner : List Token} (hopens : ∀ n, opens ≠ .number n)
    (hcloses : closes = .rightBracket ∨ closes = .rightBrace) (h : inner.IsChain Before) :
    (opens :: inner ++ [closes]).IsChain Before := by
  rw [List.cons_append, List.isChain_cons, List.isChain_append]
  refine ⟨fun t _ n hn => absurd hn (hopens n), h, List.isChain_singleton _, fun t _ u hu => ?_⟩
  obtain rfl := Option.some.inj hu
  exact before_of_closes (.inr hcloses) t

theorem chain_tokens (json : Json) : json.tokens.IsChain Before := by
  induction json using Json.ind with
  | null | bool | number | string => exact List.isChain_singleton _
  | array items ih =>
    refine chain_enclose (by simp) (.inl rfl) (chain_intercalate ?_)
    induction items with
    | nil => simp [itemTokens]
    | cons item items more =>
      rw [List.forall_mem_cons] at ih
      rw [itemTokens, List.forall_mem_cons]
      exact ⟨ih.1, more ih.2⟩
  | object members ih =>
    refine chain_enclose (by simp) (.inr rfl) (chain_intercalate ?_)
    induction members with
    | nil => simp [memberTokens]
    | cons member members more =>
      obtain ⟨key, value⟩ := member
      rw [List.forall_mem_cons] at ih
      rw [memberTokens, List.forall_mem_cons]
      refine ⟨?_, more ih.2⟩
      rw [List.isChain_cons, List.isChain_cons]
      exact ⟨fun _ _ _ hn => (nomatch hn), fun _ _ _ hn => (nomatch hn), ih.1⟩

/-- However a value is spelled, it is read. -/
theorem parse?_of_spells {text : String} {json : Json} (h : Spells text json) :
    parse? text = some json := by
  have htokens : Token.ofString? text = some json.tokens :=
    tokens?_of_spread h (chain_tokens json) []
  have hread := Reader.reads json [] []
  rw [List.append_nil] at hread
  rw [parse?, htokens, Option.bind_some, ofTokens?, hread]
  rfl

end Json
end BlindArena
