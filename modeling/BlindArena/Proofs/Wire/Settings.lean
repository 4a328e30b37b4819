import BlindArena.Proofs.Wire.RoundTrip
import Mathlib.Data.List.Count
import Mathlib.Data.Option.Basic

/-!
# Settings in part

A record may give any of the settings, in any order and among fields of other names. What it gives
replaces the standard value and everything else keeps it. A record that gives a setting twice, or
gives it a value of another type, is refused as a whole.
-/

namespace BlindArena
open Json

/-- One of the settings, and what it is set to. -/
inductive Setting where
  | seed (seed : Option UInt64)
  | deck (deck : Deck)
  | stake (stake : Stake)
  | budget (budget : Nat)
  | quiet (quiet : Bool)

namespace Setting

def names : List String := ["seed", "deck", "stake", "max_episode_steps", "quiet"]

def name : Setting → String
  | seed _ => "seed"
  | deck _ => "deck"
  | stake _ => "stake"
  | budget _ => "max_episode_steps"
  | quiet _ => "quiet"

/-- The value names the member of an enumeration, by itself or as the key of a null. -/
def Names {α : Type} [Enumeration α] (a : α) (json : Json) : Prop :=
  json = text (Enumeration.name a) ∨ json = .object [(some (Enumeration.name a), .null)]

/-- The value is of the setting's type, and this is what it stands for. -/
def Given : Setting → Json → Prop
  | seed none, json => json = .null
  | seed (some w), json => json = word w
  | deck d, json => Names d json
  | stake s, json => Names s json
  | budget n, json => n < UInt64.size ∧ json = nat n
  | quiet b, json => json = .bool b

/-- The fields give these settings, and what other fields there are has other names. -/
inductive Listed : List (String × Json) → List Setting → Prop
  | nil : Listed [] []
  | unknown {name : String} {value : Json} {fields : List (String × Json)}
      {settings : List Setting} (h : name ∉ names) (later : Listed fields settings) :
      Listed ((name, value) :: fields) settings
  | known {setting : Setting} {value : Json} {fields : List (String × Json)}
      {settings : List Setting} (h : setting.Given value) (later : Listed fields settings) :
      Listed ((setting.name, value) :: fields) (setting :: settings)

end Setting

namespace Config

def set (config : Config) : Setting → Config
  | .seed seed => { config with seed := seed }
  | .deck deck => { config with deck := deck }
  | .stake stake => { config with stake := stake }
  | .budget budget => { config with budget := budget }
  | .quiet quiet => { config with quiet := quiet }

end Config

namespace Setting
variable {α : Type} {name : String} {make : α → Setting} {read : Json → Option α}
  {get : Config → α} {fields : List (String × Json)} {settings : List Setting}

/-- The field of this name is read by `read` as what `make` sets and `get` gets. -/
structure Governs (name : String) (make : α → Setting) (read : Json → Option α)
    (get : Config → α) : Prop where
  mem_names : name ∈ names
  name_make : ∀ a, (make a).name = name
  exists_make : ∀ setting, setting.name = name → ∃ a, make a = setting
  read_iff : ∀ json a, read json = some a ↔ (make a).Given json
  get_set : ∀ (config : Config) a, get (config.set (make a)) = a
  get_set_of_ne : ∀ (config : Config) setting, setting.name ≠ name →
    get (config.set setting) = get config

theorem governs_seed : Governs "seed" seed (nullable? word?) Config.seed where
  mem_names := by simp [names]
  name_make _ := rfl
  exists_make setting h := by cases setting <;> first | exact ⟨_, rfl⟩ | simp [Setting.name] at h
  read_iff json a := by
    cases a with
    | none => exact nullable?_eq_some_none_iff
    | some w => exact (nullable?_eq_some_some_iff rfl).trans word?_eq_some_iff
  get_set _ _ := rfl
  get_set_of_ne _ setting h := by cases setting <;> first | rfl | exact absurd rfl h

theorem governs_deck : Governs "deck" deck named? Config.deck where
  mem_names := by simp [names]
  name_make _ := rfl
  exists_make setting h := by cases setting <;> first | exact ⟨_, rfl⟩ | simp [Setting.name] at h
  read_iff _ _ := named?_eq_some_iff
  get_set _ _ := rfl
  get_set_of_ne _ setting h := by cases setting <;> first | rfl | exact absurd rfl h

theorem governs_stake : Governs "stake" stake named? Config.stake where
  mem_names := by simp [names]
  name_make _ := rfl
  exists_make setting h := by cases setting <;> first | exact ⟨_, rfl⟩ | simp [Setting.name] at h
  read_iff _ _ := named?_eq_some_iff
  get_set _ _ := rfl
  get_set_of_ne _ setting h := by cases setting <;> first | rfl | exact absurd rfl h

theorem governs_budget : Governs "max_episode_steps" budget count? Config.budget where
  mem_names := by simp [names]
  name_make _ := rfl
  exists_make setting h := by cases setting <;> first | exact ⟨_, rfl⟩ | simp [Setting.name] at h
  read_iff _ _ := count?_eq_some_iff
  get_set _ _ := rfl
  get_set_of_ne _ setting h := by cases setting <;> first | rfl | exact absurd rfl h

theorem governs_quiet : Governs "quiet" quiet bool? Config.quiet where
  mem_names := by simp [names]
  name_make _ := rfl
  exists_make setting h := by cases setting <;> first | exact ⟨_, rfl⟩ | simp [Setting.name] at h
  read_iff _ _ := bool?_eq_some_iff
  get_set _ _ := rfl
  get_set_of_ne _ setting h := by cases setting <;> first | rfl | exact absurd rfl h

/-! ## What is given is read -/

theorem count_of_listed (h : Listed fields settings) (hname : name ∈ names) :
    (fields.map Prod.fst).count name = (settings.map Setting.name).count name := by
  induction h with
  | nil => rfl
  | @unknown other value fields settings hother _ ih =>
    have hne : other ≠ name := fun heq => hother (heq ▸ hname)
    rw [List.map_cons, List.count_cons_of_ne hne, ih]
  | known _ _ ih => rw [List.map_cons, List.map_cons, List.count_cons, List.count_cons, ih]

theorem Governs.get_foldl (hg : Governs name make read get)
    (h : name ∉ settings.map Setting.name) (config : Config) :
    get (settings.foldl Config.set config) = get config := by
  induction settings generalizing config with
  | nil => rfl
  | cons setting settings ih =>
    rw [List.map_cons, List.mem_cons, not_or] at h
    rw [List.foldl_cons, ih h.2]
    exact hg.get_set_of_ne config setting (Ne.symm h.1)

/-- A field that is given is read as it is set; one that is not keeps what there is. -/
theorem Governs.optional_lookup (hg : Governs name make read get) (h : Listed fields settings)
    (hnodup : (settings.map Setting.name).Nodup) (config : Config) :
    Json.optional (get config) read (fields.lookup name) =
      some (get (settings.foldl Config.set config)) := by
  induction h generalizing config with
  | nil => rfl
  | @unknown other value fields settings hother _ ih =>
    have hne : name ≠ other := fun heq => hother (heq ▸ hg.mem_names)
    rw [List.lookup_cons, beq_false_of_ne hne]
    exact ih hnodup config
  | @known setting value fields settings hgiven _ ih =>
    rw [List.map_cons, List.nodup_cons] at hnodup
    rw [List.foldl_cons]
    by_cases hname : setting.name = name
    · obtain ⟨a, rfl⟩ := hg.exists_make setting hname
      have hread : read value = some a := (hg.read_iff value a).2 hgiven
      rw [hname] at hnodup
      -- no later setting has this name, so what it sets stays
      rw [hg.get_foldl hnodup.1, hg.get_set, hname, List.lookup_cons_self]
      exact hread
    · rw [List.lookup_cons, beq_false_of_ne (Ne.symm hname),
        ← hg.get_set_of_ne config setting hname]
      exact ih hnodup.2 _

theorem Governs.given_of_reads (hg : Governs name make read get) {missing a : α} {value : Json}
    (hmem : (name, value) ∈ fields) (hone : (fields.map Prod.fst).count name ≤ 1)
    (hread : Json.optional missing read (fields.lookup name) = some a) :
    (make a).name = name ∧ (make a).Given value := by
  rw [lookup_of_mem hmem hone] at hread
  exact ⟨hg.name_make a, (hg.read_iff value a).1 hread⟩

end Setting

namespace Config
open Setting
variable {text : String} {members : List (Option String × Json)} {config : Config}

theorem parse?_of_spells {json : Json} (h : Spells text json) : parse? text = ofJson? json := by
  rw [parse?, Json.parse?_of_spells h, Option.bind_some]

theorem ofJson?_object_eq_some_iff :
    ofJson? (.object members) = some config ↔
      ∃ fields, Json.object members = record fields ∧
        (∀ name ∈ names, (fields.map Prod.fst).count name ≤ 1) ∧
        Json.optional none (nullable? word?) (fields.lookup "seed") = some config.seed ∧
        Json.optional .red named? (fields.lookup "deck") = some config.deck ∧
        Json.optional .white named? (fields.lookup "stake") = some config.stake ∧
        Json.optional 1000 count? (fields.lookup "max_episode_steps") = some config.budget ∧
        Json.optional true bool? (fields.lookup "quiet") = some config.quiet := by
  rw [ofJson?_eq_some_iff]
  constructor
  · rintro ⟨_, _, _, _, _, hfields, hrest⟩
    obtain ⟨fields, hrecord, hone, hgiven⟩ := fields?_object_eq_some_iff.1 hfields
    cases hgiven
    exact ⟨fields, hrecord, hone, hrest⟩
  · rintro ⟨fields, hrecord, hone, hrest⟩
    exact ⟨_, _, _, _, _, fields?_object_eq_some_iff.2 ⟨fields, hrecord, hone, rfl⟩, hrest⟩

theorem ofJson?_of_listed {fields : List (String × Json)} {settings : List Setting}
    (h : Listed fields settings) (hnodup : (settings.map Setting.name).Nodup) :
    ofJson? (record fields) = some (settings.foldl set {}) := by
  refine ofJson?_object_eq_some_iff.2 ⟨fields, rfl, fun name hname => ?_, ?_⟩
  · rw [count_of_listed h hname]
    exact List.nodup_iff_count_le_one.1 hnodup name
  · exact ⟨governs_seed.optional_lookup h hnodup {}, governs_deck.optional_lookup h hnodup {},
      governs_stake.optional_lookup h hnodup {}, governs_budget.optional_lookup h hnodup {},
      governs_quiet.optional_lookup h hnodup {}⟩

theorem count_of_ofJson? (h : ofJson? (.object members) = some config) {name : String}
    (hname : name ∈ names) : (members.map Prod.fst).count (some name) ≤ 1 := by
  obtain ⟨fields, hrecord, hone, -⟩ := ofJson?_object_eq_some_iff.1 h
  obtain rfl := Json.object.inj hrecord
  have hkeys : (fields.map fun field => (some field.1, field.2)).map Prod.fst =
      (fields.map Prod.fst).map some := by simp
  rw [hkeys, List.count_map_of_injective _ _ (Option.some_injective String)]
  exact hone name hname

theorem given_of_ofJson? (h : ofJson? (.object members) = some config) {name : String}
    (hname : name ∈ names) {value : Json} (hmem : (some name, value) ∈ members) :
    ∃ setting : Setting, setting.name = name ∧ setting.Given value := by
  obtain ⟨fields, hrecord, hone, hseed, hdeck, hstake, hbudget, hquiet⟩ :=
    ofJson?_object_eq_some_iff.1 h
  obtain rfl := Json.object.inj hrecord
  have hfield : (name, value) ∈ fields := by
    obtain ⟨field, hfield, heq⟩ := List.mem_map.1 hmem
    cases heq
    exact hfield
  have hcount := hone name hname
  simp only [names, List.mem_cons, List.not_mem_nil, or_false] at hname
  rcases hname with rfl | rfl | rfl | rfl | rfl
  · exact ⟨_, governs_seed.given_of_reads hfield hcount hseed⟩
  · exact ⟨_, governs_deck.given_of_reads hfield hcount hdeck⟩
  · exact ⟨_, governs_stake.given_of_reads hfield hcount hstake⟩
  · exact ⟨_, governs_budget.given_of_reads hfield hcount hbudget⟩
  · exact ⟨_, governs_quiet.given_of_reads hfield hcount hquiet⟩

/-- However an object is spelled, its settings replace the standard ones if they are of their types
and none comes twice; otherwise the object is refused. Fields of other names may hold anything. -/
theorem parse?_object (h : Spells text (.object members)) :
    (∀ fields settings, Json.object members = record fields → Listed fields settings →
      (settings.map Setting.name).Nodup → parse? text = some (settings.foldl set {})) ∧
    (∀ name ∈ names, 1 < (members.map Prod.fst).count (some name) → parse? text = none) ∧
    ∀ name ∈ names, ∀ value, (some name, value) ∈ members →
      (∀ setting : Setting, setting.name = name → ¬ setting.Given value) → parse? text = none := by
  rw [parse?_of_spells h]
  refine ⟨fun fields settings hrecord hlisted hnodup => ?_, fun name hname htwice => ?_,
    fun name hname value hmem hother => ?_⟩
  · rw [hrecord]
    exact ofJson?_of_listed hlisted hnodup
  · refine Option.eq_none_iff_forall_ne_some.2 fun config hconfig => ?_
    have hone := count_of_ofJson? hconfig hname
    omega
  · refine Option.eq_none_iff_forall_ne_some.2 fun config hconfig => ?_
    obtain ⟨setting, hsetting, hgiven⟩ := given_of_ofJson? hconfig hname hmem
    exact hother setting hsetting hgiven

/-- Two settings after a field of another name, which holds a number beyond the words and a string
without text; one setting twice, with one value; a deck in small letters. -/
theorem parse?_object_of_three :
    parse? (Json.object [(some "note", .array [nat 0x10000000000000000, .string none]),
        (some "quiet", .bool false), (some "seed", word 7)]).render =
      some { seed := some 7, quiet := false } ∧
    parse? (Json.object [(some "quiet", .bool false), (some "quiet", .bool false)]).render = none ∧
    parse? (Json.object [(some "deck", Json.text "red")]).render = none := by
  have hnumber (n : Nat) : (nat n).Proper := .number (Token.proper_ofInt n)
  refine ⟨(parse?_object (spells_render ?_)).1 [("note", _), ("quiet", _), ("seed", _)]
      [.quiet false, .seed (some 7)] rfl ?_ (by decide),
    (parse?_object (spells_render ?_)).2.1 "quiet" (by decide) (by decide),
    (parse?_object (spells_render ?_)).2.2 "deck" (by decide) (Json.text "red") (by simp) ?_⟩
  · have hnote : (Json.array [nat 0x10000000000000000, .string none]).Proper :=
      .array (by simp [hnumber, Proper.string])
    exact .object (by simp [hnote, word, hnumber, Proper.bool])
  · have hquiet : (Setting.quiet false).Given (.bool false) := rfl
    have hseed : (Setting.seed (some 7)).Given (word 7) := rfl
    exact .unknown (by decide) (.known hquiet (.known hseed .nil))
  · exact .object (by simp [Proper.bool])
  · exact .object (by simp [Json.text, Proper.string])
  · intro setting hname hgiven
    obtain ⟨deck, rfl⟩ := governs_deck.exists_make setting hname
    have hread := (governs_deck.read_iff _ deck).2 hgiven
    have hunknown : named? (Json.text "red") = (none : Option Deck) := by decide
    rw [hunknown] at hread
    cases hread

end Config

end BlindArena
