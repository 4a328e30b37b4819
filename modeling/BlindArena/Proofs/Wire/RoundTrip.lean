import BlindArena.Proofs.Json.Reading
import BlindArena.Wire.Config
import BlindArena.Wire.Report

/-!
# Values come back from the wire

What is written of settings, snapshots, choices, outcomes and reports is read as it was, as long as
its counts and amounts are in the range of their types. A JSON value carries another value if its
numerals are well formed and it is read as that value; what carries the parts of a record carries
the record.
-/

namespace BlindArena
open Json

/-- The value has a text, and is read as `a`. -/
structure Json.Carries {α : Type} (read : Json → Option α) (json : Json) (a : α) : Prop where
  proper : json.Proper
  reads : read json = some a

namespace Json.Carries
variable {α : Type} {read : Json → Option α} {write : α → Json} {json : Json} {a : α}

theorem parse (h : Carries read json a) : (parse? json.render).bind read = some a := by
  rw [parse?_render h.proper, Option.bind_some, h.reads]

theorem optional (h : Carries read json a) {missing : α} :
    Json.optional missing read (some json) = some a := h.reads

theorem required (h : Carries read json a) : Json.required read (some json) = some a := h.reads

theorem bool (b : Bool) : Carries bool? (.bool b) b := ⟨.bool b, bool?_eq_some_iff.2 rfl⟩

theorem text (s : String) : Carries text? (text s) s := ⟨.string _, text?_eq_some_iff.2 rfl⟩

theorem amount {x : Int} (h : Amount.Fits x) : Carries amount? (int x) x :=
  ⟨.number (Token.proper_ofInt x), amount?_eq_some_iff.2 ⟨h, rfl⟩⟩

theorem count {n : Nat} (h : n < UInt64.size) : Carries count? (nat n) n :=
  ⟨.number (Token.proper_ofInt n), count?_eq_some_iff.2 ⟨h, rfl⟩⟩

theorem word (w : UInt64) : Carries word? (word w) w :=
  ⟨.number (Token.proper_ofInt w.toNat), word?_eq_some_iff.2 rfl⟩

theorem named [Enumeration α] (a : α) : Carries named? (named a) a :=
  ⟨.string _, named?_eq_some_iff.2 (.inl rfl)⟩

theorem nullable (hnull : read .null = none) (h : ∀ a, Carries read (write a) a) (o : Option α) :
    Carries (nullable? read) (nullable write o) o := by
  cases o with
  | none => exact ⟨.null, rfl⟩
  | some a => exact ⟨(h a).proper, (nullable?_eq_some_some_iff hnull).2 (h a).reads⟩

theorem list {as : List α} (h : ∀ a ∈ as, Carries read (write a) a) :
    Carries (list? read) (.array (as.map write)) as := by
  refine ⟨.array fun item hitem => ?_, list?_map fun a ha => (h a ha).reads⟩
  obtain ⟨a, ha, rfl⟩ := List.mem_map.1 hitem
  exact (h a ha).proper

end Json.Carries

/-! ## Records -/

section records
-- Each reader is opened for any JSON value. Opened for the written one, its counts would be
-- unfolded down to the comparison with the range.
variable {json : Json}

theorem Config.ofJson?_eq_some_iff {config : Config} :
    Config.ofJson? json = some config ↔
      ∃ seed deck stake budget quiet,
        json.fields? ["seed", "deck", "stake", "max_episode_steps", "quiet"] .leading =
          some [seed, deck, stake, budget, quiet] ∧
        Json.optional none (nullable? word?) seed = some config.seed ∧
        Json.optional .red named? deck = some config.deck ∧
        Json.optional .white named? stake = some config.stake ∧
        Json.optional 1000 count? budget = some config.budget ∧
        Json.optional true bool? quiet = some config.quiet := by
  constructor
  · intro h
    obtain ⟨given, hfields, h⟩ := Option.bind_eq_some_iff.1 h
    split at h
    · obtain ⟨seed, hseed, h⟩ := Option.bind_eq_some_iff.1 h
      obtain ⟨deck, hdeck, h⟩ := Option.bind_eq_some_iff.1 h
      obtain ⟨stake, hstake, h⟩ := Option.bind_eq_some_iff.1 h
      obtain ⟨budget, hbudget, h⟩ := Option.bind_eq_some_iff.1 h
      obtain ⟨quiet, hquiet, h⟩ := Option.bind_eq_some_iff.1 h
      cases h
      exact ⟨_, _, _, _, _, hfields, hseed, hdeck, hstake, hbudget, hquiet⟩
    · cases h
  · rintro ⟨seed, deck, stake, budget, quiet, hfields, hseed, hdeck, hstake, hbudget, hquiet⟩
    simp only [Config.ofJson?, hfields, hseed, hdeck, hstake, hbudget, hquiet, Option.bind_eq_bind,
      Option.bind_some]

theorem Config.carries {config : Config} (h : config.budget < UInt64.size) :
    Carries Config.ofJson? config.toJson config := by
  have hseed := Carries.nullable rfl Carries.word config.seed
  have hdeck := Carries.named config.deck
  have hstake := Carries.named config.stake
  have hbudget := Carries.count h
  have hquiet := Carries.bool config.quiet
  refine ⟨proper_record ?_, Config.ofJson?_eq_some_iff.2 ?_⟩
  · simp [hseed.proper, hdeck.proper, hstake.proper, hbudget.proper, hquiet.proper]
  · exact ⟨_, _, _, _, _, fields?_record .leading (by simp), hseed.optional, hdeck.optional,
      hstake.optional, hbudget.optional, hquiet.optional⟩

theorem Choice.ofJson?_of_fields {choice : Choice} {index label : Option Json}
    (hfields : json.fields? ["index", "label"] .whole = some [index, label])
    (hindex : required count? index = some choice.index)
    (hlabel : required text? label = some choice.label) : Choice.ofJson? json = some choice := by
  simp only [Choice.ofJson?, hfields, hindex, hlabel, Option.bind_eq_bind, Option.bind_some]

theorem Choice.carries {choice : Choice} (h : choice.index < UInt64.size) :
    Carries Choice.ofJson? choice.toJson choice := by
  have hindex := Carries.count h
  have hlabel := Carries.text choice.label
  refine ⟨proper_record ?_, ?_⟩
  · simp [hindex.proper, hlabel.proper]
  · exact Choice.ofJson?_of_fields (fields?_record .whole (by simp)) hindex.required
      hlabel.required

theorem Outcome.carries (outcome : Outcome) : Carries Outcome.ofJson? outcome.toJson outcome := by
  have hrestart := Carries.bool outcome.restart
  refine ⟨proper_record ?_, rfl⟩
  simp [hrestart.proper]

theorem Report.ofJson?_of_fields {report : Report} {status phase actions finished : Option Json}
    (hfields : json.fields? ["status", "phase", "actions", "finished"] .whole =
      some [status, phase, actions, finished])
    (hstatus : required named? status = some report.status)
    (hphase : Json.optional none (nullable? named?) phase = some report.phase)
    (hactions : required (list? Choice.ofJson?) actions = some report.actions)
    (hfinished : Json.optional none (nullable? Outcome.ofJson?) finished = some report.finished) :
    Report.ofJson? json = some report := by
  simp only [Report.ofJson?, hfields, hstatus, hphase, hactions, hfinished, Option.bind_eq_bind,
    Option.bind_some]

theorem Report.carries {report : Report}
    (h : ∀ choice ∈ report.actions, choice.index < UInt64.size) :
    Carries Report.ofJson? report.toJson report := by
  have hstatus := Carries.named report.status
  have hphase := Carries.nullable rfl Carries.named report.phase
  have hactions := Carries.list fun choice hchoice => Choice.carries (h choice hchoice)
  have hfinished := Carries.nullable rfl Outcome.carries report.finished
  refine ⟨proper_record ?_, ?_⟩
  · simp [hstatus.proper, hphase.proper, hactions.proper, hfinished.proper]
  · exact Report.ofJson?_of_fields (fields?_record .whole (by simp)) hstatus.required
      hphase.optional hactions.required hfinished.optional

theorem Snapshot.ofJson?_of_fields {snapshot : Snapshot} {score money : Option Json}
    (hfields : json.fields? ["score", "money"] .whole = some [score, money])
    (hscore : required amount? score = some snapshot.score)
    (hmoney : required amount? money = some snapshot.money) :
    Snapshot.ofJson? json = some snapshot := by
  simp only [Snapshot.ofJson?, hfields, hscore, hmoney, Option.bind_eq_bind, Option.bind_some]

theorem Snapshot.carries {snapshot : Snapshot} (h : snapshot.Fits) :
    Carries Snapshot.ofJson? snapshot.toJson snapshot := by
  have hscore := Carries.amount h.1
  have hmoney := Carries.amount h.2
  refine ⟨proper_record ?_, ?_⟩
  · simp [hscore.proper, hmoney.proper]
  · exact Snapshot.ofJson?_of_fields (fields?_record .whole (by simp)) hscore.required
      hmoney.required

end records

namespace Wire

/-- Whatever is written is read as it was. Words, flags, names and texts come back without
condition; counts and amounts do if they are in the range of their types. -/
theorem read_written :
    (∀ config : Config, config.budget < UInt64.size →
      Config.parse? config.toJson.render = some config) ∧
    (∀ snapshot : Snapshot, snapshot.Fits →
      (parse? snapshot.toJson.render).bind Snapshot.ofJson? = some snapshot) ∧
    (∀ choice : Choice, choice.index < UInt64.size →
      (parse? choice.toJson.render).bind Choice.ofJson? = some choice) ∧
    (∀ outcome : Outcome,
      (parse? outcome.toJson.render).bind Outcome.ofJson? = some outcome) ∧
    ∀ report : Report, (∀ choice ∈ report.actions, choice.index < UInt64.size) →
      (parse? report.toJson.render).bind Report.ofJson? = some report := by
  refine ⟨fun config h => ?_, fun snapshot h => ?_, fun choice h => ?_, fun outcome => ?_,
    fun report h => ?_⟩
  · exact (Config.carries h).parse
  · exact (Snapshot.carries h).parse
  · exact (Choice.carries h).parse
  · exact (Outcome.carries outcome).parse
  · exact (Report.carries h).parse

/-- Figures at both ends of their range, and a label with a quote, a backslash, a line feed, a
control character and a character beyond the sixteen-bit codes. -/
theorem read_written_of_extremes :
    Config.parse? (Config.toJson ⟨some 0xffffffffffffffff, .plasma, .gold,
        0xffffffffffffffff, false⟩).render =
      some ⟨some 0xffffffffffffffff, .plasma, .gold, 0xffffffffffffffff, false⟩ ∧
    (parse? (Snapshot.toJson ⟨-0x8000000000000000, 0x7fffffffffffffff⟩).render).bind
        Snapshot.ofJson? =
      some ⟨-0x8000000000000000, 0x7fffffffffffffff⟩ ∧
    (parse? (Report.toJson ⟨.needsInput, none, [⟨0xffffffffffffffff, "\"\\\n\x01🂡"⟩],
        some ⟨true⟩⟩).render).bind Report.ofJson? =
      some ⟨.needsInput, none, [⟨0xffffffffffffffff, "\"\\\n\x01🂡"⟩], some ⟨true⟩⟩ :=
  ⟨read_written.1 _ (by decide), read_written.2.1 _ ⟨by decide, by decide⟩,
    read_written.2.2.2.2 _ (by decide)⟩

end Wire
end BlindArena
