import BlindArena.Proofs.Tracker.Lifecycle

/-!
# Runs of turns

A run of turns is kept as the list of its moves: each holds the tracker before the turn, what the
turn was given, and what came of it. Turns go on past endings; only an overflow stops a run. What
holds of the moves so far and of the tracker after them is shown once for the first moment and once
for a turn.
-/

namespace BlindArena

/-- What a turn is given. -/
structure Cue where
  report : Report
  read : Option Snapshot
  penalty : Float32
  budget : Nat

structure Move where
  before : Tracker
  cue : Cue
  turn : Turn

namespace Cue

def play (cue : Cue) (t : Tracker) : Except Overflow Turn :=
  t.turn cue.report cue.read cue.penalty cue.budget

/-- What the engine answers when it is asked for figures on a report; the first is not asked for. -/
def reads (cues : List Cue) (i : Nat) : Option Snapshot := (none :: cues.map (·.read))[i]?.join

variable {cue : Cue} {t : Tracker} {turn : Turn} {cues : List Cue} {k : Nat}

theorem phase_of_cues (first : Report) (h : cues[k]? = some cue) :
    History.ofReports (first :: cues.map (·.report)) (k + 1) = cue.report.phase := by
  simp [History.ofReports, h]

theorem reads_of_cues (h : cues[k]? = some cue) :
    reads cues (k + 1) = cue.read := by
  simp [reads, h]

theorem exists_cue_of_reads {figures : Snapshot} (h : reads cues k = some figures) :
    ∃ cue ∈ cues, cue.read = some figures := by
  cases k with
  | zero => simp [reads] at h
  | succ k =>
    obtain ⟨cue, hcue, hread⟩ : ∃ cue, cues[k]? = some cue ∧ cue.read = some figures := by
      simpa [reads, Option.join_eq_some_iff] using h
    exact ⟨cue, List.mem_of_getElem? hcue, hread⟩

/-- A turn by the tracker that has seen the report and is not yet settled. -/
theorem play_ok_elim (h : cue.play t = .ok turn) :
    ∃ seen gains, t.tick.observe cue.report cue.read = .ok seen ∧ seen.gains = .ok gains ∧
      turn.shaped = Breakdown.ofGains gains (seen.bonusDue cue.report.phase) cue.penalty ∧
      turn.tracker = seen.settle (seen.bonusDue cue.report.phase) := by
  obtain ⟨seen, shaped, hseen, hshaped, rfl⟩ := Tracker.turn_eq_ok_iff.1 h
  cases hgains : seen.gains with
  | error overflow => simp [Breakdown.shape, hgains, bind, Except.bind] at hshaped
  | ok gains =>
    simp only [Breakdown.shape, hgains, bind, Except.bind, pure, Except.pure,
      Except.ok.injEq] at hshaped
    subst hshaped
    exact ⟨seen, gains, hseen, hgains, rfl, by simp⟩

/-- A turn decides by the tracker it leaves. -/
theorem ending_of_play (h : cue.play t = .ok turn) :
    turn.ending = Ending.decide cue.report turn.tracker cue.budget := by
  obtain ⟨seen, shaped, -, -, rfl⟩ := Tracker.turn_eq_ok_iff.1 h
  rfl

end Cue

namespace Tracker

def moves (t : Tracker) : List Cue → Except Overflow (List Move)
  | [] => .ok []
  | cue :: cues =>
    match cue.play t with
    | .error overflow => .error overflow
    | .ok turn => (turn.tracker.moves cues).map (⟨t, cue, turn⟩ :: ·)

variable {t : Tracker} {ms : List Move}

theorem moves_cons {cue : Cue} {cues : List Cue} {turn : Turn} (hplay : cue.play t = .ok turn)
    (hlater : turn.tracker.moves cues = .ok ms) :
    t.moves (cue :: cues) = .ok (⟨t, cue, turn⟩ :: ms) := by
  simp [moves, hplay, hlater, Except.map]

theorem moves_cons_ok_elim {cue : Cue} {cues : List Cue} (h : t.moves (cue :: cues) = .ok ms) :
    ∃ turn later, cue.play t = .ok turn ∧ turn.tracker.moves cues = .ok later ∧
      ms = ⟨t, cue, turn⟩ :: later := by
  cases hturn : cue.play t with
  | error overflow => simp [moves, hturn] at h
  | ok turn =>
    cases hlater : turn.tracker.moves cues with
    | error overflow => simp [moves, hturn, hlater, Except.map] at h
    | ok later =>
      simp only [moves, hturn, hlater, Except.map, Except.ok.injEq] at h
      exact ⟨turn, later, rfl, hlater, h.symm⟩

/-- A run succeeds when every turn does that starts from what the turns before it keep. -/
theorem exists_moves {P : Nat → Tracker → Prop} {cues : List Cue} {i : Nat} (h : P i t)
    (hturn : ∀ k cue t, cues[k]? = some cue → P (i + k) t →
      ∃ turn, cue.play t = .ok turn ∧ P (i + k + 1) turn.tracker) :
    ∃ ms, t.moves cues = .ok ms ∧ ∀ m ∈ ms, ∃ k, P k m.turn.tracker := by
  induction cues generalizing t i with
  | nil => exact ⟨[], rfl, by simp⟩
  | cons cue cues ih =>
    obtain ⟨turn, hplay, hnext⟩ := hturn 0 cue t rfl h
    obtain ⟨later, hlater, hkept⟩ := ih hnext fun k cue t hcue hk => by
      have harg : i + 0 + 1 + k = i + (k + 1) := by omega
      rw [harg] at hk ⊢
      exact hturn (k + 1) cue t hcue hk
    refine ⟨⟨t, cue, turn⟩ :: later, moves_cons hplay hlater, ?_⟩
    rintro m (_ | ⟨_, hm⟩)
    · exact ⟨_, hnext⟩
    · exact hkept m hm

theorem cues_of_moves {cues : List Cue} (h : t.moves cues = .ok ms) : ms.map (·.cue) = cues := by
  induction cues generalizing t ms with
  | nil =>
    cases h
    rfl
  | cons cue cues ih =>
    obtain ⟨turn, later, -, hlater, rfl⟩ := moves_cons_ok_elim h
    simp [ih hlater]

theorem moves_take {cues : List Cue} (hms : t.moves cues = .ok ms) (k : Nat) :
    t.moves (cues.take k) = .ok (ms.take k) := by
  induction cues generalizing t ms k with
  | nil =>
    cases hms
    simp [moves]
  | cons cue cues ih =>
    obtain ⟨turn, later, hplay, hlater, rfl⟩ := moves_cons_ok_elim hms
    cases k with
    | zero => rfl
    | succ k => exact moves_cons hplay (ih hlater k)

/-- In a run each tracker comes from the one before it by the turn of its number. -/
theorem play_of_moves {cues : List Cue} (hms : t.moves cues = .ok ms) {i : Nat} {t' : Tracker}
    (ht : (t :: ms.map (·.turn.tracker))[i + 1]? = some t') :
    ∃ before cue turn, (t :: ms.map (·.turn.tracker))[i]? = some before ∧ cues[i]? = some cue ∧
      cue.play before = .ok turn ∧ turn.tracker = t' := by
  induction cues generalizing t ms i with
  | nil =>
    cases hms
    simp at ht
  | cons cue cues ih =>
    obtain ⟨turn, later, hplay, hlater, rfl⟩ := moves_cons_ok_elim hms
    cases i with
    | zero =>
      simp only [List.map_cons, List.getElem?_cons_succ, List.getElem?_cons_zero,
        Option.some.injEq] at ht
      exact ⟨t, cue, turn, rfl, rfl, hplay, ht⟩
    | succ i => simpa using ih hlater (by simpa using ht)

/-- What every turn keeps, of the moves up to it and the tracker after them, holds before each turn
of a run that goes on from such moves. -/
theorem invariant_of_moves {P : List Move → Tracker → Prop}
    (hturn : ∀ past t cue turn, P past t → cue.play t = .ok turn →
      P (past ++ [⟨t, cue, turn⟩]) turn.tracker)
    {cues : List Cue} (past : List Move) (hpast : P past t) (hms : t.moves cues = .ok ms)
    {k : Nat} {m : Move} (hm : ms[k]? = some m) :
    P (past ++ ms.take k) m.before ∧ m.cue.play m.before = .ok m.turn := by
  induction cues generalizing t ms past k with
  | nil =>
    cases hms
    simp at hm
  | cons cue cues ih =>
    obtain ⟨turn, later, hplay, hlater, rfl⟩ := moves_cons_ok_elim hms
    cases k with
    | zero =>
      simp only [List.getElem?_cons_zero, Option.some.injEq] at hm
      subst hm
      exact ⟨by simpa using hpast, hplay⟩
    | succ k =>
      have hnext := hturn past t cue turn hpast hplay
      simpa using ih _ hnext hlater hm

end Tracker
end BlindArena
