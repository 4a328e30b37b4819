import BlindArena.Proofs.Env.Trails
import BlindArena.Proofs.Tracker.Turns
import Mathlib.Data.List.DropRight

/-!
# The books of an environment

A call that fails leaves the bookkeeping as it was, wherever it fails. So after any calls the
tracker is the one that began with the first report of the last successful reset and took one turn
for each step that has succeeded since.
-/

namespace BlindArena

namespace Tracker

def plays (t : Tracker) (cues : List Cue) : Except Overflow Tracker :=
  cues.foldlM (fun t cue => (cue.play t).map Turn.tracker) t

theorem plays_concat {t t' : Tracker} {cues : List Cue} {cue : Cue} {turn : Turn}
    (h : t.plays cues = .ok t') (hplay : cue.play t' = .ok turn) :
    t.plays (cues ++ [cue]) = .ok turn.tracker := by
  unfold plays at h ⊢
  rw [List.foldlM_append, h]
  simp [bind, Except.bind, hplay, Except.map, pure, Except.pure]

end Tracker

namespace Env
variable {σ : Type} (E : Engine σ)

def cue (env : Env σ) (action : Index) : Option Cue :=
  env.session.bind fun session =>
    let resolution := Resolution.resolve action env.tracker.legal
    let advanced := session.advance E resolution.effective
    advanced.answer.toOption.map fun report =>
      { report := report
        read := (read E advanced.state env.tracker report.phase).1
        penalty := resolution.penalty
        budget := env.config.budget }

/-- What a reset gives the tracker, if the fresh engine shows its first decision point. -/
def opening (env : Env σ) (seed : Option UInt64) : Option Report :=
  (launch E env.config (seed.getD env.seed)).1.toOption.bind fun session =>
    (session.probe E).answer.toOption

def Answer.renews : Answer → Bool
  | opened (.ok _) | closed => true
  | _ => false

def Answer.advances : Answer → Bool
  | stepped (.ok _) => true
  | _ => false

def stepsTaken (answers : List Answer) : Nat :=
  (answers.rtakeWhile fun answer => !answer.renews).countP Answer.advances

namespace Entry

def opening (x : Entry σ) : Option Report :=
  match x.call with
  | .reset seed => x.before.opening E seed
  | _ => none

/-- What a step gives the tracker, if the engine answers it. -/
def cue (x : Entry σ) : Option Cue :=
  match x.call, x.answer with
  | .step action, .stepped (.ok _) => x.before.cue E action
  | _, _ => none

/-- The tracker with which the books last began: by the reset that did so, if it was one. -/
def beginning (entries : List (Entry σ)) : Tracker :=
  ((entries.rdropWhile fun x => !x.answer.renews).getLast?.bind fun x => x.opening E).elim {}
    Tracker.begin

/-- What the steps taken since gave the tracker. -/
def cues (entries : List (Entry σ)) : List Cue :=
  (entries.rtakeWhile fun x => !x.answer.renews).filterMap fun x => x.cue E

end Entry

variable {E} {env last : Env σ}

theorem cue_of_step {action : Index} {reply : Reply (Env σ) (Except Failure Transition)}
    {transition : Transition} (h : env.step E action = .ok reply)
    (ha : reply.answer = .ok transition) :
    ∃ cue turn, env.cue E action = some cue ∧ cue.play env.tracker = .ok turn ∧
      reply.state.tracker = turn.tracker ∧ transition.reward = turn.shaped.total ∧
      transition.ending = turn.ending := by
  obtain ⟨session, report, turn, hsession, hreport, hturn, rfl, hstate⟩ := step_ok_elim h ha
  refine ⟨⟨report, _, _, _⟩, turn, ?_, hturn, by rw [hstate], rfl, rfl⟩
  simp only [cue, hsession, hreport, Option.bind_some, Except.toOption, Option.map_some]

theorem opening_of_reset {seed : Option UInt64} {view : View}
    (h : (env.reset E seed).answer = .ok view) :
    ∃ report, env.opening E seed = some report ∧
      (env.reset E seed).state.tracker = Tracker.begin report := by
  rcases reset_elim (E := E) env seed with
    ⟨failure, hanswer, -⟩ | ⟨session, report, hlaunch, hprobe, -, hstate⟩
  · rw [hanswer] at h
    cases h
  · refine ⟨report, ?_, by rw [hstate]⟩
    simp only [opening, hlaunch, hprobe, Except.toOption, Option.bind_some]

/-! ## Failing calls -/

theorem state_of_failed_step {action : Index} {reply : Reply (Env σ) (Except Failure Transition)}
    {failure : Failure} (h : env.step E action = .ok reply) (ha : reply.answer = .error failure) :
    ∃ session, reply.state = { env with session := session } ∧
      session.isNone = env.session.isNone := by
  rcases step_elim h with ⟨-, -, hstate⟩ | ⟨session, _, hsession, -, -, hstate⟩ | ⟨_, hanswer⟩
  · exact ⟨env.session, hstate, rfl⟩
  · exact ⟨_, hstate, by rw [hsession]; rfl⟩
  · rw [hanswer] at ha
    cases ha

theorem state_of_failed_reset {seed : Option UInt64} {failure : Failure}
    (h : (env.reset E seed).answer = .error failure) :
    (env.reset E seed).state = { env with seed := seed.getD env.seed } := by
  rcases reset_elim (E := E) env seed with ⟨-, -, hstate⟩ | ⟨_, _, -, -, hanswer, -⟩
  · exact hstate
  · rw [hanswer] at h
    cases h

/-! ## The books -/

/-- The tracker is what the entries come to. -/
structure Booked (E : Engine σ) (past : List (Entry σ)) (env : Env σ) : Prop where
  tracker : (Entry.beginning E past).plays (Entry.cues E past) = .ok env.tracker
  cues : (Entry.cues E past).length = stepsTaken (past.map (·.answer))
  steps : env.tracker.steps = stepsTaken (past.map (·.answer))

namespace Booked
variable {past : List (Entry σ)} {x : Entry σ} {next : Env σ}

theorem renewed (hrenews : x.answer.renews = true)
    (htracker : next.tracker = (x.opening E).elim {} Tracker.begin) :
    Booked E (past ++ [x]) next := by
  have hbeginning : Entry.beginning E (past ++ [x]) = next.tracker := by
    simp [Entry.beginning, hrenews, htracker]
  have hcues : Entry.cues E (past ++ [x]) = [] := by
    simp [Entry.cues, hrenews]
  have htaken : stepsTaken ((past ++ [x]).map (·.answer)) = 0 := by
    simp [stepsTaken, hrenews]
  refine ⟨by rw [hbeginning, hcues]; rfl, by rw [hcues, htaken]; rfl, ?_⟩
  rw [htaken, htracker]
  cases x.opening E <;> rfl

theorem unchanged (h : Booked E past env) (hrenews : x.answer.renews = false)
    (hadvances : x.answer.advances = false) (htracker : next.tracker = env.tracker) :
    Booked E (past ++ [x]) next := by
  have hcue : x.cue E = none := by
    unfold Entry.cue
    split
    · rename_i hanswer
      simp [hanswer, Answer.advances] at hadvances
    · rfl
  have hbeginning : Entry.beginning E (past ++ [x]) = Entry.beginning E past := by
    simp [Entry.beginning, hrenews]
  have hcues : Entry.cues E (past ++ [x]) = Entry.cues E past := by
    simp [Entry.cues, hrenews, hcue]
  have htaken : stepsTaken ((past ++ [x]).map (·.answer)) = stepsTaken (past.map (·.answer)) := by
    simp [stepsTaken, hrenews, hadvances]
  refine ⟨?_, by rw [hcues, htaken, h.cues], by rw [htaken, htracker, h.steps]⟩
  rw [hbeginning, hcues, htracker, h.tracker]

theorem turned (h : Booked E past env) (hadvances : x.answer.advances = true) {cue : Cue}
    {turn : Turn} (hcue : x.cue E = some cue) (hplay : cue.play env.tracker = .ok turn)
    (htracker : next.tracker = turn.tracker) : Booked E (past ++ [x]) next := by
  have hrenews : x.answer.renews = false := by
    cases hanswer : x.answer with
    | stepped answer => rfl
    | opened answer => simp [hanswer, Answer.advances] at hadvances
    | closed => simp [hanswer, Answer.advances] at hadvances
  have hbeginning : Entry.beginning E (past ++ [x]) = Entry.beginning E past := by
    simp [Entry.beginning, hrenews]
  have hcues : Entry.cues E (past ++ [x]) = Entry.cues E past ++ [cue] := by
    simp [Entry.cues, hrenews, hcue]
  have htaken :
      stepsTaken ((past ++ [x]).map (·.answer)) = stepsTaken (past.map (·.answer)) + 1 := by
    simp [stepsTaken, hrenews, hadvances]
  refine ⟨?_, by rw [hcues, htaken, List.length_append, h.cues]; rfl, ?_⟩
  · rw [hbeginning, hcues, htracker]
    exact Tracker.plays_concat h.tracker hplay
  · rw [htaken, htracker, Tracker.steps_of_turn hplay, h.steps]

theorem of_make {config : Config} {word : UInt64} (h : (make E config word).1 = .ok env) :
    Booked E [] env := by
  obtain ⟨session, -, rfl⟩ := make_eq_ok_iff.1 h
  exact ⟨rfl, rfl, rfl⟩

theorem perform (h : Booked E past env) {call : Call} {answer : Answer}
    (hperform : call.perform E env = .ok (answer, next)) :
    Booked E (past ++ [⟨env, call, answer, next⟩]) next := by
  cases call with
  | reset seed =>
    cases hperform
    cases hanswer : (env.reset E seed).answer with
    | error failure =>
      exact h.unchanged rfl rfl (by rw [state_of_failed_reset hanswer])
    | ok view =>
      obtain ⟨report, hopening, htracker⟩ := opening_of_reset hanswer
      refine renewed rfl ?_
      rw [htracker]
      simp only [Entry.opening, hopening, Option.elim_some]
  | step action =>
    obtain ⟨reply, hstep, rfl, rfl⟩ := perform_step_ok_elim hperform
    cases hanswer : reply.answer with
    | error failure =>
      obtain ⟨session, hstate, -⟩ := state_of_failed_step hstep hanswer
      exact h.unchanged rfl rfl (by rw [hstate])
    | ok transition =>
      obtain ⟨cue, turn, hcue, hplay, htracker, -⟩ := cue_of_step hstep hanswer
      exact h.turned rfl hcue hplay htracker
  | close =>
    cases hperform
    exact renewed rfl rfl

end Booked

/-- What a failing step and a failing reset leave, and what the tracker comes to after any calls. -/
theorem books_survive_failures :
    (∀ (env : Env σ) action reply failure, env.step E action = .ok reply →
      reply.answer = .error failure →
        reply.state.config = env.config ∧ reply.state.seed = env.seed ∧
        reply.state.isClosed = env.isClosed ∧ reply.state.tracker = env.tracker) ∧
    (∀ (env : Env σ) seed failure, (env.reset E seed).answer = .error failure →
      (env.reset E seed).state = { env with seed := seed.getD env.seed } ∧
      ∀ actions : List Index, (env.reset E seed).state.heard E (actions.map .step) =
        env.heard E (actions.map .step)) ∧
    ∀ config word (made : Env σ) calls answers last, (make E config word).1 = .ok made →
      made.run E calls = .ok (answers, last) →
        ∃ entries, made.trail E calls = .ok entries ∧ entries.map (·.answer) = answers ∧
          (Entry.beginning E entries).plays (Entry.cues E entries) = .ok last.tracker ∧
          (Entry.cues E entries).length = stepsTaken answers ∧
          last.tracker.steps = stepsTaken answers := by
  refine ⟨?_, ?_, ?_⟩
  · intro env action reply failure hstep hanswer
    obtain ⟨session, hstate, hclosed⟩ := state_of_failed_step hstep hanswer
    rw [hstate]
    exact ⟨rfl, rfl, hclosed, rfl⟩
  · intro env seed failure hanswer
    have hstate := state_of_failed_reset hanswer
    refine ⟨hstate, fun actions => ?_⟩
    rw [hstate]
    exact heard_steps_reseed env env.config.seed (seed.getD env.seed) actions
  · intro config word made calls answers last hmake hrun
    obtain ⟨entries, htrail, hanswers, hbooked⟩ := trail_of_run
      (P := Booked E) (fun past env call answer next h hperform => h.perform hperform)
      [] (Booked.of_make hmake) hrun
    rw [List.nil_append] at hbooked
    subst hanswers
    exact ⟨entries, htrail, rfl, hbooked.tracker, hbooked.cues, hbooked.steps⟩

/-- Two steps are booked between a failing step and two resets to a seed that is refused. -/
theorem books_survive_failures_of_busy :
    ∃ made answers last entries reply refusal failure, (make busy.engine {} 4).1 = .ok made ∧
      made.step busy.engine 7 = .ok reply ∧ reply.answer = .error failure ∧
      reply.state.tracker = made.tracker ∧
      made.run busy.engine [.step 7, .reset (some 9), .reset (some 3), .step 8, .step 2,
        .reset (some 9), .step 5] = .ok (answers, last) ∧
      entries.map (·.answer) = answers ∧
      (Entry.beginning busy.engine entries).plays (Entry.cues busy.engine entries) =
        .ok last.tracker ∧
      last.tracker.steps = 2 ∧ (last.reset busy.engine (some 9)).answer = .error refusal ∧
      (last.reset busy.engine (some 9)).state = { last with seed := 9 } := by
  obtain ⟨hsteps, hresets, hruns⟩ := books_survive_failures (E := busy.engine)
  obtain ⟨made, answers, last, reply, refusal, failure, hmake, hstep, hfailure, hrun, htaken,
      hrefusal⟩ : ∃ made answers last reply refusal failure,
        (make busy.engine {} 4).1 = .ok made ∧ made.step busy.engine 7 = .ok reply ∧
        reply.answer = .error failure ∧
        made.run busy.engine [.step 7, .reset (some 9), .reset (some 3), .step 8, .step 2,
          .reset (some 9), .step 5] = .ok (answers, last) ∧
        stepsTaken answers = 2 ∧ (last.reset busy.engine (some 9)).answer = .error refusal :=
    ⟨_, _, _, _, _, _, rfl, rfl, rfl, rfl, rfl, rfl⟩
  obtain ⟨-, -, -, hkept⟩ := hsteps made 7 reply failure hstep hfailure
  obtain ⟨entries, -, hanswers, hbooks, -, hcount⟩ := hruns {} 4 made _ answers last hmake hrun
  exact ⟨made, answers, last, entries, reply, refusal, failure, hmake, hstep, hfailure, hkept, hrun,
    hanswers, hbooks, hcount.trans htaken, hrefusal, (hresets last (some 9) refusal hrefusal).1⟩

end Env
end BlindArena
