import BlindArena.Json.Field
import BlindArena.Proofs.Json.Writing
import Mathlib.Data.List.Nodup

/-!
# What is read as a value of a type

Each reader accepts the forms that its type is written in and no others. A record's fields are found
by their names, wherever they stand in the object and whatever stands between them.
-/

namespace BlindArena

theorem Numeral.toInt?_eq_some_iff {n : Numeral} {x : Int} : n.toInt? = some x ↔ n = .ofInt x := by
  constructor
  · intro h
    obtain ⟨negative, whole, tail⟩ := n
    cases tail with
    | cons c tail => simp [toInt?] at h
    | nil =>
      cases negative with
      | false =>
        obtain rfl : (whole : Int) = x := by simpa [toInt?] using h
        simp [ofInt]
      | true =>
        obtain ⟨hwhole, rfl⟩ : whole ≠ 0 ∧ -(whole : Int) = x := by simpa [toInt?] using h
        simp [ofInt, Nat.pos_of_ne_zero hwhole]
  · rintro rfl
    exact toInt?_ofInt x

namespace Json
variable {α : Type} {json : Json}

/-! ## Plain values -/

theorem bool?_eq_some_iff {b : Bool} : json.bool? = some b ↔ json = .bool b := by
  cases json <;> simp [bool?]

theorem text?_eq_some_iff {s : String} : json.text? = some s ↔ json = text s := by
  cases json <;> simp [text?, text]

theorem int?_eq_some_iff {x : Int} : json.int? = some x ↔ json = int x := by
  cases json <;> simp [int?, int, Numeral.toInt?_eq_some_iff]

theorem amount?_eq_some_iff {x : Int} :
    json.amount? = some x ↔ Amount.Fits x ∧ json = int x := by
  simp only [amount?, Option.bind_eq_bind, Option.bind_eq_some_iff, int?_eq_some_iff,
    Option.ite_none_right_eq_some, Option.some.injEq]
  constructor
  · rintro ⟨y, rfl, hfits, rfl⟩
    exact ⟨hfits, rfl⟩
  · rintro ⟨hfits, rfl⟩
    exact ⟨x, rfl, hfits, rfl⟩

theorem count?_eq_some_iff {n : Nat} : json.count? = some n ↔ n < UInt64.size ∧ json = nat n := by
  simp only [count?, Option.bind_eq_bind, Option.bind_eq_some_iff, int?_eq_some_iff,
    Option.ite_none_right_eq_some, Option.some.injEq]
  constructor
  · rintro ⟨y, rfl, ⟨hsign, hsize⟩, rfl⟩
    have hback : (y.toNat : Int) = y := Int.toNat_of_nonneg hsign
    exact ⟨by omega, by rw [nat, hback]⟩
  · rintro ⟨hsize, rfl⟩
    exact ⟨n, rfl, ⟨by omega, by omega⟩, rfl⟩

theorem word?_eq_some_iff {w : UInt64} : json.word? = some w ↔ json = word w := by
  simp only [word?, Option.map_eq_some_iff, count?_eq_some_iff]
  constructor
  · rintro ⟨n, ⟨hsize, rfl⟩, rfl⟩
    rw [word, UInt64.toNat_ofNat_of_lt' hsize]
  · rintro rfl
    exact ⟨w.toNat, ⟨w.toNat_lt_size, rfl⟩, UInt64.ofNat_toNat⟩

theorem named?_eq_some_iff [Enumeration α] {a : α} :
    json.named? = some a ↔
      json = named a ∨ json = .object [(some (Enumeration.name a), .null)] := by
  constructor
  · intro h
    unfold named? at h
    split at h
    · rw [Enumeration.ofName?_eq_some_iff] at h
      rw [← h]
      exact .inl rfl
    · rw [Enumeration.ofName?_eq_some_iff] at h
      rw [← h]
      exact .inr rfl
    · cases h
  · rintro (rfl | rfl)
    · exact Enumeration.ofName?_name a
    · exact Enumeration.ofName?_name a

/-! ## Values in values -/

section nested
variable {read : Json → Option α}

theorem nullable?_eq_some_none_iff : nullable? read json = some none ↔ json = .null := by
  cases json <;> simp [nullable?]

theorem nullable?_eq_some_some_iff (hnull : read .null = none) {a : α} :
    nullable? read json = some (some a) ↔ read json = some a := by
  cases json <;> simp [nullable?, hnull]

theorem list?_map {write : α → Json} {as : List α} (h : ∀ a ∈ as, read (write a) = some a) :
    list? read (.array (as.map write)) = some as := by
  rw [list?]
  induction as with
  | nil => rfl
  | cons a as ih =>
    rw [List.forall_mem_cons] at h
    rw [List.map_cons, List.mapM_cons, h.1, ih h.2]
    rfl

end nested

/-! ## Records -/

section records
variable {members : List (Option String × Json)} {fields : List (String × Json)}
  {names : List String} {form : ArrayForm} {name : String}

theorem members?_eq_some_iff :
    members? members = some fields ↔ Json.object members = record fields := by
  rw [record, Json.object.injEq]
  constructor
  · intro h
    induction members generalizing fields with
    | nil =>
      cases h
      rfl
    | cons member members ih =>
      obtain ⟨key, value⟩ := member
      obtain ⟨name, hname, h⟩ := Option.bind_eq_some_iff.1 h
      obtain ⟨rest, hrest, h⟩ := Option.bind_eq_some_iff.1 h
      cases h
      rw [ih hrest, hname]
      rfl
  · rintro rfl
    induction fields with
    | nil => rfl
    | cons field fields ih =>
      rw [List.map_cons, members?, ih]
      rfl

theorem length_filter_name (fields : List (String × Json)) (name : String) :
    (fields.filter fun field => field.1 = name).length = (fields.map Prod.fst).count name := by
  rw [← List.countP_eq_length_filter, List.count, List.countP_map]
  rfl

theorem fields?_object_eq_some_iff {given : List (Option Json)} :
    fields? names form (.object members) = some given ↔
      ∃ fields, Json.object members = record fields ∧
        (∀ name ∈ names, (fields.map Prod.fst).count name ≤ 1) ∧
        given = names.map fun name => fields.lookup name := by
  simp only [fields?, Option.bind_eq_bind, Option.bind_eq_some_iff, members?_eq_some_iff,
    Option.ite_none_right_eq_some, List.all_eq_true, decide_eq_true_eq, length_filter_name,
    Option.some.injEq, eq_comm (b := given)]

/-- A field that is given once is found. -/
theorem lookup_of_mem {value : Json} (h : (name, value) ∈ fields)
    (hone : (fields.map Prod.fst).count name ≤ 1) : fields.lookup name = some value := by
  induction fields with
  | nil => cases h
  | cons field fields ih =>
    obtain ⟨key, first⟩ := field
    by_cases hkey : key = name
    · subst hkey
      rw [List.map_cons, List.count_cons_self] at hone
      have hrest : key ∉ fields.map Prod.fst := List.count_eq_zero.1 (by omega)
      rcases List.mem_cons.1 h with heq | hmem
      · rw [List.lookup_cons_self, (Prod.mk.inj heq).2]
      · exact absurd (List.mem_map_of_mem hmem) hrest
    · have hlater : (name, value) ∈ fields := by
        rcases List.mem_cons.1 h with heq | hmem
        · exact absurd (Prod.mk.inj heq).1.symm hkey
        · exact hmem
      rw [List.map_cons, List.count_cons_of_ne hkey] at hone
      rw [List.lookup_cons, beq_false_of_ne (Ne.symm hkey)]
      exact ih hlater hone

/-- The fields of a record are found in it. -/
theorem fields?_record (form : ArrayForm) (h : (fields.map Prod.fst).Nodup) :
    fields? (fields.map Prod.fst) form (record fields) = some (fields.map fun f => some f.2) := by
  have hone (name : String) : (fields.map Prod.fst).count name ≤ 1 :=
    List.nodup_iff_count_le_one.1 h name
  refine fields?_object_eq_some_iff.2 ⟨fields, rfl, fun name _ => hone name, ?_⟩
  rw [List.map_map]
  exact List.map_congr_left fun field hfield => (lookup_of_mem hfield (hone field.1)).symm

theorem proper_record (h : ∀ field ∈ fields, Proper field.2) : (record fields).Proper := by
  refine .object fun member hmember => ?_
  obtain ⟨field, hfield, rfl⟩ := List.mem_map.1 hmember
  exact h field hfield

end records

end Json
end BlindArena
