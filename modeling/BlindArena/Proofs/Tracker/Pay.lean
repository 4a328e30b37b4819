import BlindArena.Proofs.Tracker.Turns

/-!
# What the shares of score and money are counted from

While a blind is running the figures are brought up to date against its baseline, and a gain is what
they moved since the turn before. Entering a blind takes a new baseline but leaves the figures of
the blind before it standing, so its first refresh is counted from the figures read at the entry
plus what that earlier blind had earned. Every other refresh is counted from the preceding read.
-/

namespace BlindArena

namespace Snapshot

/-- The exact difference, whether it fits or not. -/
def minus (a b : Snapshot) : Snapshot := ⟨a.score - b.score, a.money - b.money⟩

theorem eq_minus_of_sub {a b d : Snapshot} (h : a.sub b = .ok d) : d = a.minus b := by
  obtain ⟨hscore, hmoney⟩ := sub_eq_ok_iff.1 h
  obtain ⟨score, money⟩ := d
  rw [minus, ← (Amount.sub_eq_ok_iff.1 hscore).1, ← (Amount.sub_eq_ok_iff.1 hmoney).1]

theorem minus_minus_of_balance {a b c d e : Snapshot} (h : c.minus b = d.minus e) :
    (a.minus b).minus d = (a.minus c).minus e := by
  simp only [minus, Snapshot.mk.injEq] at h ⊢
  omega

theorem minus_self_eq (a b : Snapshot) : a.minus a = b.minus b := by simp [minus]

@[simp] theorem minus_default (a : Snapshot) : a.minus {} = a := by simp [minus]

def positive (a : Snapshot) : Snapshot := ⟨max a.score 0, max a.money 0⟩

/-- Counting from too high or too low a figure shows unless both ways nothing is gained. -/
theorem gained_eq_iff {moved offset : Int} :
    max (moved - offset) 0 = max moved 0 ↔ offset = 0 ∨ moved ≤ 0 ∧ moved ≤ offset := by
  omega

end Snapshot

namespace Move

def phase (m : Move) : Option Phase := m.cue.report.phase

/-- The engine's figures are read on this turn. -/
def reads (m : Move) : Bool := m.before.wantsRead m.phase

def enters (m : Move) : Bool := m.before.enters m.phase

def refreshes (m : Move) : Bool := m.before.refreshes m.phase

/-- What the shares of score and money are made from. -/
def gains (m : Move) : Except Overflow Snapshot :=
  (m.before.tick.observe m.cue.report m.cue.read).bind Tracker.gains

theorem reads_eq (m : Move) : m.reads = (m.enters || m.refreshes) :=
  Tracker.wantsRead_eq m.before m.phase

theorem gains_of_observe {m : Move} {seen : Tracker} {gains : Snapshot}
    (hseen : m.before.tick.observe m.cue.report m.cue.read = .ok seen)
    (hgains : seen.gains = .ok gains) : m.gains = .ok gains := by
  rw [Move.gains, hseen]
  exact hgains

/-! Of the moves so far, the latest first: -/

/-- The figures that were read last. -/
def lastRead : List Move → Option Snapshot
  | [] => none
  | m :: earlier => if m.reads then m.cue.read else lastRead earlier

/-- The figures that were read when play was last entered. -/
def entryRead : List Move → Option Snapshot
  | [] => none
  | m :: earlier => if m.enters then m.cue.read else entryRead earlier

/-- What the blind that was refreshed last had earned or lost by then; nothing if none was. -/
def standing : List Move → Snapshot
  | [] => {}
  | m :: earlier =>
    if m.refreshes then (m.cue.read.getD {}).minus ((entryRead earlier).getD {})
    else standing earlier

/-- What the next refresh is counted from, beyond the figures that were read last: what an earlier
blind has left standing if these were read at an entry, and nothing if they were read at a refresh.
-/
def carried : List Move → Snapshot
  | [] => {}
  | m :: earlier =>
    if m.refreshes then {} else if m.enters then standing earlier else carried earlier

end Move

namespace Tracker
open Move

theorem gains_eq_ok_iff {t : Tracker} {gains : Snapshot} :
    t.gains = .ok gains ↔
      ∃ moved, t.current.sub t.previous = .ok moved ∧ gains = moved.positive := by
  cases h : t.current.sub t.previous with
  | error overflow => simp [Tracker.gains, h, bind, Except.bind]
  | ok moved =>
    simp [Tracker.gains, h, bind, Except.bind, pure, Except.pure, Snapshot.positive, eq_comm]

/-- The tracker between turns by the reads so far, when every read that was asked for succeeded. -/
structure Accounted (past : List Move) (t : Tracker) : Prop where
  settled : t.previous = t.current
  current : t.current = standing past
  running : t.started = true → ∃ entry last, t.baseline = some ⟨.engine, entry⟩ ∧
    entryRead past = some entry ∧ lastRead past = some last ∧
    last.minus entry = (standing past).minus (carried past)

namespace Accounted
variable {past : List Move} {t seen : Tracker} {cue : Cue} {turn : Turn}

theorem begin (first : Report) : Accounted [] (begin first) where
  settled := rfl
  current := rfl
  running := by simp [Tracker.begin, arrive]

/-- On a refresh the figures have moved by what was read, less what was read last and what is
carried. -/
theorem of_refresh (h : Accounted past t) (hr : t.refreshes cue.report.phase = true)
    (hread : cue.read ≠ none) (hseen : t.tick.observe cue.report cue.read = .ok seen) :
    ∃ now entry last, cue.read = some now ∧ seen.baseline = some ⟨.engine, entry⟩ ∧
      entryRead past = some entry ∧ lastRead past = some last ∧ seen.current = now.minus entry ∧
      seen.current.minus seen.previous = (now.minus last).minus (carried past) := by
  obtain ⟨now, hnow⟩ := Option.ne_none_iff_exists'.1 hread
  obtain ⟨entry, last, hbaseline, hentry, hlast, hbalance⟩ := h.running (started_of_refreshes hr)
  obtain ⟨followed, hf, rfl⟩ := followed_of_observe hseen
  have hprevious : followed.previous = standing past :=
    (hf.previous_eq.trans h.settled).trans h.current
  obtain ⟨finished, hrefreshed⟩ := hf.refreshed hr
  rw [hnow] at hrefreshed
  obtain ⟨hcurrent, hseen, -⟩ := hrefreshed.of_baseline hbaseline
  have hmoved : followed.current = now.minus entry := Snapshot.eq_minus_of_sub hcurrent
  refine ⟨now, entry, last, hnow, hseen, hentry, hlast, hmoved, ?_⟩
  change followed.current.minus followed.previous = _
  rw [hmoved, hprevious]
  exact Snapshot.minus_minus_of_balance hbalance

theorem play_refresh (h : Accounted past t) (hr : t.refreshes cue.report.phase = true)
    (hread : cue.read ≠ none) (hseen : t.tick.observe cue.report cue.read = .ok seen)
    (turn : Turn) (bonus : Bool) : Accounted (⟨t, cue, turn⟩ :: past) (seen.settle bonus) := by
  obtain ⟨now, entry, last, hnow, hbaseline, hentry, -, hcurrent, -⟩ := h.of_refresh hr hread hseen
  have hrefreshes : Move.refreshes ⟨t, cue, turn⟩ = true := hr
  have hreads : Move.reads ⟨t, cue, turn⟩ = true := by rw [reads_eq, hrefreshes, Bool.or_true]
  have henters : Move.enters ⟨t, cue, turn⟩ = false := by
    by_contra henters
    rw [Bool.not_eq_false] at henters
    rw [Move.refreshes, refreshes_eq_false_of_enters henters] at hrefreshes
    cases hrefreshes
  have hstanding : standing (⟨t, cue, turn⟩ :: past) = now.minus entry := by
    simp [standing, hrefreshes, hnow, hentry]
  refine ⟨rfl, hcurrent.trans hstanding.symm, fun _ => ⟨entry, now, hbaseline, ?_, ?_, ?_⟩⟩
  · simpa [entryRead, henters] using hentry
  · simp [lastRead, hreads, hnow]
  · simp [hstanding, carried, hrefreshes]

theorem play_enter (h : Accounted past t) (he : t.enters cue.report.phase = true)
    (hread : cue.read ≠ none) (hseen : t.tick.observe cue.report cue.read = .ok seen)
    (turn : Turn) (bonus : Bool) : Accounted (⟨t, cue, turn⟩ :: past) (seen.settle bonus) := by
  obtain ⟨now, hnow⟩ := Option.ne_none_iff_exists'.1 hread
  obtain ⟨followed, hf, rfl⟩ := followed_of_observe hseen
  obtain rfl := hf.entered he
  have henters : Move.enters ⟨t, cue, turn⟩ = true := he
  have hreads : Move.reads ⟨t, cue, turn⟩ = true := by rw [reads_eq, henters, Bool.true_or]
  have hrefreshes : Move.refreshes ⟨t, cue, turn⟩ = false := refreshes_eq_false_of_enters henters
  have hstanding : standing (⟨t, cue, turn⟩ :: past) = standing past := by
    simp [standing, hrefreshes]
  refine ⟨rfl, h.current.trans hstanding.symm, fun _ => ⟨now, now, ?_, ?_, ?_, ?_⟩⟩
  · change some (Baseline.capture t.baseline cue.read t.current) = _
    rw [hnow, Baseline.capture_some]
  · simp [entryRead, henters, hnow]
  · simp [lastRead, hreads, hnow]
  · rw [hstanding]
    simpa [carried, hrefreshes, henters] using Snapshot.minus_self_eq _ _

theorem play_unread (h : Accounted past t) (hw : t.wantsRead cue.report.phase = false)
    (hseen : t.tick.observe cue.report cue.read = .ok seen)
    (turn : Turn) (bonus : Bool) : Accounted (⟨t, cue, turn⟩ :: past) (seen.settle bonus) := by
  obtain ⟨followed, hf, rfl⟩ := followed_of_observe hseen
  obtain ⟨hcurrent, hrunning⟩ := hf.unread hw
  have hreads : Move.reads ⟨t, cue, turn⟩ = false := hw
  obtain ⟨henters, hrefreshes⟩ := Bool.or_eq_false_iff.1 ((reads_eq _).symm.trans hreads)
  have hstanding : standing (⟨t, cue, turn⟩ :: past) = standing past := by
    simp [standing, hrefreshes]
  refine ⟨rfl, (hcurrent.trans h.current).trans hstanding.symm, fun hstarted => ?_⟩
  obtain ⟨hbefore, hbaseline⟩ := hrunning hstarted
  obtain ⟨entry, last, hsome, hentry, hlast, hbalance⟩ := h.running hbefore
  refine ⟨entry, last, hbaseline.trans hsome, ?_, ?_, ?_⟩
  · simpa [entryRead, henters] using hentry
  · simpa [lastRead, hreads] using hlast
  · rw [hstanding]
    simpa [carried, henters, hrefreshes] using hbalance

theorem play (h : Accounted past t) (hplay : cue.play t = .ok turn)
    (hread : t.wantsRead cue.report.phase = true → cue.read ≠ none) :
    Accounted (⟨t, cue, turn⟩ :: past) turn.tracker := by
  obtain ⟨seen, gains, hseen, -, -, htracker⟩ := Cue.play_ok_elim hplay
  rw [htracker]
  have hwants := wantsRead_eq t cue.report.phase
  by_cases he : t.enters cue.report.phase = true
  · exact h.play_enter he (hread (by simp [hwants, he])) hseen turn _
  · by_cases hr : t.refreshes cue.report.phase = true
    · exact h.play_refresh hr (hread (by simp [hwants, hr])) hseen turn _
    · exact h.play_unread (by simp [hwants, he, hr]) hseen turn _

end Accounted

variable {first : Report} {cues : List Cue} {ms : List Move}

theorem accounted_of_moves (hrun : (begin first).moves cues = .ok ms)
    (hreads : ∀ m ∈ ms, m.reads = true → m.cue.read ≠ none) {k : Nat} {m : Move}
    (hm : ms[k]? = some m) :
    Accounted (ms.take k).reverse m.before ∧ m.cue.play m.before = .ok m.turn := by
  obtain ⟨hbefore, hplay⟩ := invariant_of_moves
    (P := fun past t => (∀ m ∈ past, m.reads = true → m.cue.read ≠ none) →
      Accounted past.reverse t)
    (fun past t cue turn h hplay hpast => by
      have haccount := h fun m hmem => hpast m (List.mem_append_left _ hmem)
      have hread := hpast ⟨t, cue, turn⟩ (by simp)
      simpa using haccount.play hplay hread)
    [] (fun _ => Accounted.begin first) hrun hm
  refine ⟨?_, hplay⟩
  simpa using hbefore fun m hmem => hreads m (List.mem_of_mem_take hmem)

theorem reads_of_moves (hrun : (begin first).moves cues = .ok ms)
    (hcues : ∀ cue ∈ cues, cue.read ≠ none) :
    ∀ m ∈ ms, m.reads = true → m.cue.read ≠ none := by
  intro m hmem _
  apply hcues
  rw [← cues_of_moves hrun]
  exact List.mem_map_of_mem hmem

/-- On every refresh of a run in which no read that was asked for failed, the gains are what was
read less what was read last and less what is carried. They are counted from the last read alone
exactly when nothing is carried, or when there is nothing to gain either way. -/
theorem gains_of_refresh (hrun : (begin first).moves cues = .ok ms)
    (hreads : ∀ m ∈ ms, m.reads = true → m.cue.read ≠ none) {k : Nat} {m : Move}
    (hm : ms[k]? = some m) (hr : m.refreshes = true) :
    ∃ now before gains, m.cue.read = some now ∧ lastRead (ms.take k).reverse = some before ∧
      m.gains = .ok gains ∧
      m.turn.shaped.score = Float32.ofInt gains.score ∧
      m.turn.shaped.money = Float32.ofInt gains.money * Reward.moneyWeight ∧
      let moved := now.minus before
      let earlier := carried (ms.take k).reverse
      gains = (moved.minus earlier).positive ∧
      (gains.score = max moved.score 0 ↔
        earlier.score = 0 ∨ moved.score ≤ 0 ∧ moved.score ≤ earlier.score) ∧
      (gains.money = max moved.money 0 ↔
        earlier.money = 0 ∨ moved.money ≤ 0 ∧ moved.money ≤ earlier.money) := by
  obtain ⟨haccount, hplay⟩ := accounted_of_moves hrun hreads hm
  obtain ⟨seen, gains, hseen, hgains, hshaped, -⟩ := Cue.play_ok_elim hplay
  have hasked : m.reads = true := by rw [reads_eq, hr, Bool.or_true]
  have hread := hreads m (List.mem_of_getElem? hm) hasked
  obtain ⟨now, entry, last, hnow, -, -, hlast, -, hmoved⟩ := haccount.of_refresh hr hread hseen
  obtain ⟨moved, hsub, hpositive⟩ := gains_eq_ok_iff.1 hgains
  have hgained : gains = ((now.minus last).minus (carried (ms.take k).reverse)).positive := by
    rw [hpositive, Snapshot.eq_minus_of_sub hsub, hmoved]
  have hmade : m.gains = .ok gains := by rw [Move.gains, hseen]; exact hgains
  refine ⟨now, last, gains, hnow, hlast, hmade, by rw [hshaped]; rfl, by rw [hshaped]; rfl, ?_⟩
  refine ⟨hgained, ?_, ?_⟩
  · rw [hgained]
    exact Snapshot.gained_eq_iff
  · rw [hgained]
    exact Snapshot.gained_eq_iff

/-- A second blind is counted from what the first one left: of the 500 it brings, 200 are paid. -/
theorem gains_of_refresh_of_second_blind :
    let cue (phase : Phase) (score : Int) : Cue := ⟨.input phase [], some ⟨score, 4⟩, 0, 1000⟩
    let cues := [cue .playing 100, cue .playing 400, cue .blindSelect 400, cue .playing 400,
      cue .playing 900]
    ∃ ms m, (begin (.input .blindSelect [])).moves cues = .ok ms ∧
      (∀ m ∈ ms, m.reads = true → m.cue.read ≠ none) ∧ ms[4]? = some m ∧ m.refreshes = true ∧
      m.turn.shaped.score = Float32.ofInt 200 := by
  intro cue cues
  obtain ⟨ms, m, hrun, hm, hr, hread, hlast, hearlier⟩ :
      ∃ ms m, (begin (.input .blindSelect [])).moves cues = .ok ms ∧ ms[4]? = some m ∧
        m.refreshes = true ∧ m.cue.read = some ⟨900, 4⟩ ∧
        lastRead (ms.take 4).reverse = some ⟨400, 4⟩ ∧
        carried (ms.take 4).reverse = ⟨300, 0⟩ :=
    ⟨_, _, rfl, rfl, rfl, rfl, rfl, rfl⟩
  have hreads := reads_of_moves hrun (by simp [cues, cue])
  obtain ⟨now, before, gains, hnow, hbefore, -, hscore, -, hgains, -⟩ :=
    gains_of_refresh hrun hreads hm hr
  refine ⟨ms, m, hrun, hreads, hm, hr, ?_⟩
  obtain rfl : ⟨900, 4⟩ = now := Option.some.inj (hread.symm.trans hnow)
  obtain rfl : ⟨400, 4⟩ = before := Option.some.inj (hlast.symm.trans hbefore)
  rw [hscore, hgains, hearlier]
  rfl

/-- Gains are not always counted from the last read: here 250 are made and none paid. -/
theorem not_gains_since_last_read :
    ¬ ∀ (first : Report) (cues : List Cue) (ms : List Move),
      (begin first).moves cues = .ok ms → (∀ m ∈ ms, m.reads = true → m.cue.read ≠ none) →
      ∀ (k : Nat) (m : Move) (now before : Snapshot), ms[k]? = some m → m.refreshes = true →
        m.cue.read = some now → lastRead (ms.take k).reverse = some before →
        m.gains = .ok (now.minus before).positive := by
  intro h
  let cue (phase : Phase) (score : Int) : Cue := ⟨.input phase [], some ⟨score, 4⟩, 0, 1000⟩
  let cues := [cue .playing 100, cue .playing 400, cue .blindSelect 400, cue .playing 400,
    cue .playing 650]
  obtain ⟨ms, m, hrun, hm, hr, hread, hlast, hgains⟩ :
      ∃ ms m, (begin (.input .blindSelect [])).moves cues = .ok ms ∧ ms[4]? = some m ∧
        m.refreshes = true ∧ m.cue.read = some ⟨650, 4⟩ ∧
        lastRead (ms.take 4).reverse = some ⟨400, 4⟩ ∧ m.gains = .ok ⟨0, 0⟩ :=
    ⟨_, _, rfl, rfl, rfl, rfl, rfl, rfl⟩
  have hreads := reads_of_moves hrun (by simp [cues, cue])
  have hpaid := h _ cues ms hrun hreads 4 m ⟨650, 4⟩ ⟨400, 4⟩ hm hr hread hlast
  rw [hgains] at hpaid
  cases hpaid

end Tracker
end BlindArena
