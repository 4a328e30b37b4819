import BlindArena.Proofs.Tracker.Pay
import Mathlib.Algebra.Ring.Int.Defs
import Mathlib.Data.List.Chain

/-!
# One blind and its reads

From the entry of play to the round end the figures are counted from one baseline, and every turn
asks for them. A turn that is not answered gains nothing and leaves the figures standing, so the
next one that is answered is counted from the last read, however many reads failed between. While
figures never fall, the gains therefore add up to what was read last, less the baseline.
-/

namespace BlindArena

namespace Snapshot

def fields : List (Snapshot → Int) := [score, money]

variable {field : Snapshot → Int}

theorem mem_fields : field ∈ fields ↔ field = score ∨ field = money := by
  simp [fields]

theorem field_default (h : field ∈ fields) : field {} = 0 := by
  rcases mem_fields.1 h with rfl | rfl <;> rfl

theorem field_gained (h : field ∈ fields) (a b : Snapshot) :
    field (a.minus b).positive = max (field a - field b) 0 := by
  rcases mem_fields.1 h with rfl | rfl <;> rfl

theorem minus_minus_minus (a b c : Snapshot) : (a.minus c).minus (b.minus c) = a.minus b := by
  have hbalance : b.minus c = (b.minus c).minus {} := (minus_default _).symm
  rw [minus_minus_of_balance hbalance, minus_default]

theorem positive_minus_self (a : Snapshot) : (a.minus a).positive = {} := by
  simp [minus, positive]

end Snapshot

namespace Cue

/-- The figures that are read, in order. -/
def figures (cues : List Cue) : List Snapshot := cues.filterMap (·.read)

theorem mem_figures {cues : List Cue} {s : Snapshot} :
    s ∈ figures cues ↔ ∃ cue ∈ cues, cue.read = some s :=
  List.mem_filterMap

theorem figures_sublist_cons (cue : Cue) (cues : List Cue) :
    (figures cues).Sublist (figures (cue :: cues)) :=
  (List.sublist_cons_self cue cues).filterMap _

theorem figures_cons_none {cue : Cue} (cues : List Cue) (h : cue.read = none) :
    figures (cue :: cues) = figures cues :=
  List.filterMap_cons_none h

theorem figures_cons_some {cue : Cue} {read : Snapshot} (cues : List Cue)
    (h : cue.read = some read) : figures (cue :: cues) = read :: figures cues :=
  List.filterMap_cons_some h

/-- What was read last goes on from what was read before. -/
theorem getLastD_figures_cons (cue : Cue) (cues : List Cue) (last : Snapshot) :
    (figures (cue :: cues)).getLastD last = (figures cues).getLastD (cue.read.getD last) := by
  cases hread : cue.read with
  | none => rw [figures_cons_none cues hread, Option.getD_none]
  | some read => rw [figures_cons_some cues hread, List.getLastD_cons, Option.getD_some]

/-- After a turn of one phase, a turn of another goes on with the blind: it plays on or ends the
round. -/
def GoesOn (prev phase : Option Phase) : Prop :=
  phase = some .roundEnd ∨ phase = some .playing ∧ prev = some .playing

def Onward (prev : Option Phase) (cues : List Cue) : Prop :=
  (prev :: cues.map (·.report.phase)).IsChain GoesOn

theorem onward_cons {prev : Option Phase} {cue : Cue} {cues : List Cue} :
    Onward prev (cue :: cues) ↔ GoesOn prev cue.report.phase ∧ Onward cue.report.phase cues :=
  List.isChain_cons_cons

theorem Onward.take {prev : Option Phase} {cues : List Cue} (h : Onward prev cues) (k : Nat) :
    Onward prev (cues.take k) := by
  rw [Onward, List.map_take]
  exact List.IsChain.take h (k + 1)

/-- Play is entered, goes on, and then its round has ended. -/
structure OneBlind (entry : Cue) (plays ends : List Cue) : Prop where
  entry : entry.report.phase = some .playing
  plays : ∀ cue ∈ plays, cue.report.phase = some .playing
  ends : ∀ cue ∈ ends, cue.report.phase = some .roundEnd

theorem onward_ends {ends : List Cue} (h : ∀ cue ∈ ends, cue.report.phase = some .roundEnd)
    (prev : Option Phase) : Onward prev ends := by
  induction ends generalizing prev with
  | nil => exact .singleton prev
  | cons cue ends ih =>
    obtain ⟨hcue, hends⟩ := List.forall_mem_cons.1 h
    exact onward_cons.2 ⟨Or.inl hcue, ih hends _⟩

theorem OneBlind.onward {entry : Cue} {plays ends : List Cue} (h : OneBlind entry plays ends) :
    Onward (some .playing) (plays ++ ends) := by
  obtain ⟨-, hplays, hends⟩ := h
  induction plays with
  | nil => exact onward_ends hends _
  | cons cue plays ih =>
    obtain ⟨hcue, hplays⟩ := List.forall_mem_cons.1 hplays
    rw [List.cons_append, onward_cons, hcue]
    exact ⟨Or.inr ⟨rfl, rfl⟩, ih hplays⟩

end Cue

namespace Tracker
variable {t : Tracker} {base last : Snapshot} {cue : Cue} {cues : List Cue} {turn : Turn}
  {ms : List Move}

theorem refreshes_of_goesOn {phase : Option Phase} (hstarted : t.started = true)
    (h : Cue.GoesOn t.prevPhase phase) : t.refreshes phase = true := by
  rcases h with rfl | ⟨rfl, hprev⟩
  · simp [refreshes, hstarted]
  · simp [refreshes, hstarted, hprev]

/-- A running blind between turns, with its baseline and the figures that were read last. -/
structure Counting (base last : Snapshot) (t : Tracker) : Prop where
  started : t.started = true
  baseline : ∃ tier, t.baseline = some ⟨tier, base⟩
  current : t.current = last.minus base
  settled : t.previous = t.current

/-- Play that is entered from a fresh start counts from what is read there, or else from nothing. -/
theorem counting_of_entry {first : Report} (hfirst : first.phase ≠ some .playing)
    (hentry : cue.report.phase = some .playing) (hplay : cue.play (begin first) = .ok turn) :
    Counting (cue.read.getD {}) (cue.read.getD {}) turn.tracker ∧
      turn.tracker.prevPhase = some .playing ∧ Move.gains ⟨begin first, cue, turn⟩ = .ok {} := by
  obtain ⟨seen, gains, hseen, hgains, -, htracker⟩ := Cue.play_ok_elim hplay
  have hmade : Move.gains ⟨begin first, cue, turn⟩ = .ok gains :=
    Move.gains_of_observe hseen hgains
  obtain ⟨followed, hf, rfl⟩ := followed_of_observe hseen
  have henters : (begin first).tick.enters cue.report.phase = true := by
    simpa [Tracker.enters, hentry, tick, Tracker.begin, arrive] using hfirst
  obtain rfl := hf.entered henters
  rw [htracker, hmade]
  refine ⟨⟨rfl, ?_, ?_, rfl⟩, hentry, ?_⟩
  · cases hread : cue.read with
    | none => exact ⟨.carried, rfl⟩
    | some figures => exact ⟨.engine, rfl⟩
  · exact Snapshot.minus_self_eq {} _
  · obtain ⟨moved, hmoved, rfl⟩ := gains_eq_ok_iff.1 hgains
    rw [Snapshot.eq_minus_of_sub hmoved]
    exact congrArg _ (Snapshot.positive_minus_self {})

/-- A turn of the blind gains what was read beyond the last read, and nothing without a read. -/
theorem Counting.play (h : Counting base last t) (hr : t.refreshes cue.report.phase = true)
    (hplay : cue.play t = .ok turn) :
    Counting base (cue.read.getD last) turn.tracker ∧
      turn.tracker.prevPhase = cue.report.phase ∧
      turn.tracker.tier = (if cue.read.isSome then .engine else .carried) ∧
      Move.gains ⟨t, cue, turn⟩ = .ok ((cue.read.getD last).minus last).positive := by
  obtain ⟨seen, gains, hseen, hgains, -, htracker⟩ := Cue.play_ok_elim hplay
  have hmade : Move.gains ⟨t, cue, turn⟩ = .ok gains := Move.gains_of_observe hseen hgains
  obtain ⟨tier, hbaseline⟩ := h.baseline
  obtain ⟨followed, hf, rfl⟩ := followed_of_observe hseen
  have hprevious : followed.previous = last.minus base :=
    (hf.previous_eq.trans h.settled).trans h.current
  obtain ⟨finished, hrefreshed⟩ := hf.refreshed hr
  obtain ⟨hstarted, hsame, htier, hcurrent⟩ : followed.started = true ∧
      followed.baseline = some ⟨tier, base⟩ ∧
      followed.tier = (if cue.read.isSome then .engine else .carried) ∧
      followed.current = (cue.read.getD last).minus base := by
    generalize cue.read = read at hrefreshed
    cases hrefreshed with
    | counted hfrom hcounted =>
      obtain rfl := Option.some.inj (hbaseline.symm.trans hfrom)
      exact ⟨h.started, hbaseline, rfl, Snapshot.eq_minus_of_sub hcounted⟩
    | kept hnone =>
      have hnone : read = none := by
        rcases hnone with hnone | hnone
        · exact hnone
        · simp [show t.baseline = none from hnone] at hbaseline
      subst hnone
      exact ⟨h.started, hbaseline, rfl, h.current⟩
  have hgained : gains = ((cue.read.getD last).minus last).positive := by
    obtain ⟨moved, hmoved, rfl⟩ := gains_eq_ok_iff.1 hgains
    have hmoved : moved = followed.current.minus followed.previous :=
      Snapshot.eq_minus_of_sub hmoved
    rw [hmoved, hcurrent, hprevious, Snapshot.minus_minus_minus]
  rw [htracker, hmade, hgained]
  exact ⟨⟨hstarted, ⟨tier, hsame⟩, hcurrent, rfl⟩, rfl, htier, rfl⟩

/-- Before each turn of a blind the figures are those of the last read so far. -/
theorem Counting.of_moves (h : Counting base last t)
    (hgo : Cue.Onward t.prevPhase cues)
    (hrun : t.moves cues = .ok ms) {k : Nat} {m : Move} (hm : ms[k]? = some m) :
    Counting base ((Cue.figures (cues.take k)).getLastD last) m.before ∧
      m.before.refreshes m.cue.report.phase = true ∧ m.cue.play m.before = .ok m.turn := by
  induction cues generalizing t last ms k with
  | nil =>
    cases hrun
    simp at hm
  | cons cue cues ih =>
    obtain ⟨turn, later, hplay, hlater, rfl⟩ := moves_cons_ok_elim hrun
    obtain ⟨hgoes, hrest⟩ := Cue.onward_cons.1 hgo
    have hr := refreshes_of_goesOn h.started hgoes
    cases k with
    | zero =>
      simp only [List.getElem?_cons_zero, Option.some.injEq] at hm
      subst hm
      exact ⟨h, hr, hplay⟩
    | succ k =>
      obtain ⟨hnext, hprev, -, -⟩ := h.play hr hplay
      rw [← hprev] at hrest
      rw [List.take_succ_cons, Cue.getLastD_figures_cons]
      exact ih hnext hrest hlater hm

/-- While figures never fall, what a blind gains adds up to how far they have risen. -/
theorem Counting.gains (h : Counting base last t)
    (hgo : Cue.Onward t.prevPhase cues)
    (hrun : t.moves cues = .ok ms) :
    ∃ gains, ms.mapM Move.gains = .ok gains ∧ ∀ field ∈ Snapshot.fields,
      ((last :: Cue.figures cues).map field).Pairwise (· ≤ ·) →
        (gains.map field).sum = field ((Cue.figures cues).getLastD last) - field last := by
  induction cues generalizing t last ms with
  | nil =>
    cases hrun
    exact ⟨[], rfl, by simp [Cue.figures]⟩
  | cons cue cues ih =>
    obtain ⟨turn, later, hplay, hlater, rfl⟩ := moves_cons_ok_elim hrun
    obtain ⟨hgoes, hrest⟩ := Cue.onward_cons.1 hgo
    obtain ⟨hnext, hprev, -, hgained⟩ := h.play (refreshes_of_goesOn h.started hgoes) hplay
    rw [← hprev] at hrest
    obtain ⟨gains, hgains, hsum⟩ := ih hnext hrest hlater
    refine ⟨((cue.read.getD last).minus last).positive :: gains, ?_, ?_⟩
    · simp [List.mapM_cons, hgained, hgains, bind, Except.bind, pure, Except.pure]
    · intro field hfield hrise
      rw [Cue.getLastD_figures_cons, List.map_cons, List.sum_cons, Snapshot.field_gained hfield]
      cases hread : cue.read with
      | none =>
        rw [Cue.figures_cons_none cues hread] at hrise
        have hrest := hsum field hfield (by rwa [hread])
        rw [hread] at hrest
        rw [hrest]
        simp
      | some now =>
        rw [Cue.figures_cons_some cues hread, List.map_cons, List.map_cons,
          List.pairwise_cons] at hrise
        obtain ⟨hle, hrise⟩ := hrise
        have hnow : field last ≤ field now := hle _ List.mem_cons_self
        have hrest := hsum field hfield (by rwa [hread])
        rw [hread] at hrest
        rw [hrest]
        simp only [Option.getD_some]
        omega

variable {first : Report} {entry : Cue} {plays ends : List Cue}

/-- A blind that is played from a fresh start pays the rise of its figures over its baseline. -/
theorem gains_of_blind (hfirst : first.phase ≠ some .playing)
    (hentry : entry.report.phase = some .playing) (hgo : Cue.Onward (some .playing) cues)
    (hrun : (begin first).moves (entry :: cues) = .ok ms) :
    let base := entry.read.getD {}
    ∃ gains, ms.mapM Move.gains = .ok gains ∧ ∀ field ∈ Snapshot.fields,
      ((base :: Cue.figures cues).map field).Pairwise (· ≤ ·) →
        (gains.map field).sum = field ((Cue.figures cues).getLastD base) - field base := by
  intro base
  obtain ⟨turn, later, hplay, hlater, rfl⟩ := moves_cons_ok_elim hrun
  obtain ⟨hcounting, hprev, hentered⟩ := counting_of_entry hfirst hentry hplay
  rw [← hprev] at hgo
  obtain ⟨gains, hgains, hsum⟩ := hcounting.gains hgo hlater
  refine ⟨{} :: gains, ?_, ?_⟩
  · simp [List.mapM_cons, hentered, hgains, bind, Except.bind, pure, Except.pure]
  · intro field hfield hrise
    rw [List.map_cons, List.sum_cons, Snapshot.field_default hfield, Int.zero_add]
    exact hsum field hfield hrise

theorem getLast?_figures_of_entry {opening : Snapshot} (hopening : entry.read = some opening)
    (k : Nat) : (Cue.figures ((entry :: cues).take (k + 1))).getLast? =
      some ((Cue.figures (cues.take k)).getLastD opening) := by
  rw [List.take_succ_cons, Cue.figures_cons_some _ hopening, List.getLast?_cons,
    List.getLastD_eq_getLast?]

/-- Reads that fail after the entry of a blind only put off what is paid: a turn that is answered is
counted from the last answer, and every stretch of the blind pays in all how far the figures have
risen by its last answer. -/
theorem gains_of_late_reads {opening : Snapshot} (hfirst : first.phase ≠ some .playing)
    (hblind : Cue.OneBlind entry plays ends) (hopening : entry.read = some opening)
    (hrun : (begin first).moves (entry :: (plays ++ ends)) = .ok ms) :
    let cues := entry :: (plays ++ ends)
    (∀ k m, ms[k + 1]? = some m →
      (m.cue.read = none → m.gains = .ok {} ∧ m.turn.tracker.current = m.before.current ∧
        m.turn.tracker.tier = .carried) ∧
      ∀ now, m.cue.read = some now →
        ∃ before, (Cue.figures (cues.take (k + 1))).getLast? = some before ∧
          m.turn.tracker.tier = .engine ∧ m.gains = .ok (now.minus before).positive) ∧
    ∀ k, ∃ gains last, (ms.take (k + 1)).mapM Move.gains = .ok gains ∧
      (Cue.figures (cues.take (k + 1))).getLast? = some last ∧
      ∀ field ∈ Snapshot.fields,
        ((Cue.figures (cues.take (k + 1))).map field).Pairwise (· ≤ ·) →
          (gains.map field).sum = field last - field opening := by
  intro cues
  have hgo := hblind.onward
  constructor
  · intro k m hm
    obtain ⟨turn, later, hplay, hlater, rfl⟩ := moves_cons_ok_elim hrun
    obtain ⟨hcounting, hprev, -⟩ := counting_of_entry hfirst hblind.entry hplay
    rw [hopening, Option.getD_some] at hcounting
    rw [← hprev] at hgo
    obtain ⟨hbefore, hr, hplayed⟩ := hcounting.of_moves hgo hlater hm
    obtain ⟨hafter, -, htier, hgained⟩ := hbefore.play hr hplayed
    have hlast : (Cue.figures (cues.take (k + 1))).getLast? =
        some ((Cue.figures ((plays ++ ends).take k)).getLastD opening) :=
      getLast?_figures_of_entry hopening k
    constructor
    · intro hread
      rw [hread, Option.getD_none] at hafter hgained
      refine ⟨?_, hafter.current.trans hbefore.current.symm, by rw [htier, hread]; rfl⟩
      rwa [Snapshot.positive_minus_self] at hgained
    · intro now hread
      rw [hread, Option.getD_some] at hgained
      exact ⟨_, hlast, by rw [htier, hread]; rfl, hgained⟩
  · intro k
    have hprefix := moves_take hrun (k + 1)
    rw [List.take_succ_cons] at hprefix
    obtain ⟨gains, hgains, hsum⟩ := gains_of_blind hfirst hblind.entry (hgo.take k) hprefix
    refine ⟨gains, _, hgains, getLast?_figures_of_entry hopening k, ?_⟩
    intro field hfield hrise
    rw [List.take_succ_cons, Cue.figures_cons_some _ hopening] at hrise
    simpa [hopening] using hsum field hfield (by simpa [hopening] using hrise)

/-- Of seven turns the third and the fifth are not answered, nor is the last: 550 points and 5 of
money are paid in all, up to the sixth. -/
theorem gains_of_late_reads_of_gaps :
    let cue (phase : Phase) (read : Option Snapshot) : Cue := ⟨.input phase [], read, 0, 1000⟩
    let entry := cue .playing (some ⟨100, 4⟩)
    let plays := [cue .playing (some ⟨160, 4⟩), cue .playing none, cue .playing (some ⟨400, 4⟩),
      cue .playing none]
    let ends := [cue .roundEnd (some ⟨650, 9⟩), cue .roundEnd none]
    ∃ ms gains, (begin (.input .blindSelect [])).moves (entry :: (plays ++ ends)) = .ok ms ∧
      (ms.take 6).mapM Move.gains = .ok gains ∧ (gains.map (·.score)).sum = 550 ∧
      (gains.map (·.money)).sum = 5 := by
  intro cue entry plays ends
  have hblind : Cue.OneBlind entry plays ends := ⟨rfl, by simp [plays, cue, Report.input],
    by simp [ends, cue, Report.input]⟩
  obtain ⟨ms, hrun⟩ : ∃ ms, (begin (.input .blindSelect [])).moves (entry :: (plays ++ ends)) =
      .ok ms := ⟨_, rfl⟩
  obtain ⟨gains, last, hgains, hlast, hsum⟩ :=
    (gains_of_late_reads (by simp [Report.input]) hblind rfl hrun).2 5
  obtain rfl : ⟨650, 9⟩ = last := Option.some.inj hlast
  refine ⟨ms, gains, hrun, hgains, ?_, ?_⟩
  · exact hsum Snapshot.score (Snapshot.mem_fields.2 (Or.inl rfl)) (by decide)
  · exact hsum Snapshot.money (Snapshot.mem_fields.2 (Or.inr rfl)) (by decide)

end Tracker
end BlindArena
