import BlindArena.Proofs.Env.Trails

/-!
# Views and the moments they are of

A view has two halves, the observation and the diagnostics. The observation is encoded from the
tracker before a turn is settled and the diagnostics are drawn up after it, but settling changes
nothing that an observation shows. So both halves are of the same moment, that of the tracker as the
call leaves it.
-/

namespace BlindArena

/-- An observation does not show what settling changes. -/
theorem Observation.encode_settle (phase : Option Phase) (legal : List Index) (t : Tracker)
    (bonus : Bool) : encode phase legal (t.settle bonus) = encode phase legal t := rfl

namespace View

/-- Both halves of a view are of the moment at which the tracker is this one. -/
structure Shows (view : View) (t : Tracker) : Prop where
  phase : view.info.phase = t.phase
  valid : view.info.valid = t.legal
  figures : t.current = ⟨view.info.score, view.info.money⟩
  place : view.observation.phase = Phase.encode view.info.phase
  available : view.observation.available = Mask.ofIndices view.info.valid
  gameInfo : view.observation.gameInfo.toList =
    [Float32.ofInt view.info.score, Float32.ofInt view.info.money, 1, 1, 4, 3,
      Observation.flag t.started, Observation.flag t.finished, Float32.ofNat t.steps,
      Float32.ofNat view.observation.phase]

structure Opens (view : View) : Prop where
  figures : view.info.score = 0 ∧ view.info.money = 0
  remapped : view.info.remapped = false
  started : view.observation.gameInfo.started = 0
  finished : view.observation.gameInfo.finished = 0
  steps : view.observation.gameInfo.steps = 0

theorem shows_opening (report : Report) :
    (opening report (Tracker.begin report)).Shows (Tracker.begin report) :=
  ⟨rfl, rfl, rfl, rfl, rfl, rfl⟩

theorem opens_opening (report : Report) : (opening report (Tracker.begin report)).Opens :=
  ⟨⟨rfl, rfl⟩, rfl, rfl, rfl, rfl⟩

/-- A tracker that has observed the report shows in the view, settled or not. -/
theorem shows_afterStep {t seen : Tracker} {report : Report} {read : Option Snapshot}
    (h : t.observe report read = .ok seen) (bonus : Bool) (resolution : Resolution) :
    (afterStep report (seen.settle bonus) resolution).Shows (seen.settle bonus) := by
  unfold Tracker.observe at h
  cases hfollow : t.follow report.phase read with
  | error overflow => simp [hfollow, Except.map] at h
  | ok followed =>
    simp only [hfollow, Except.map, Except.ok.injEq] at h
    subst h
    exact ⟨rfl, rfl, rfl, rfl, rfl, rfl⟩

end View

namespace Env
variable {σ : Type} {E : Engine σ} {env : Env σ}

/-- The observation is encoded from a tracker that has observed the step and is not settled yet. -/
def Observes (before : Tracker) (o : Observation) (after : Tracker) : Prop :=
  ∃ report read seen paid, before.tick.observe report read = .ok seen ∧
    o = Observation.encode report.phase report.legal seen ∧ after = seen.settle paid

theorem shows_of_reset {seed : Option UInt64} {view : View}
    (h : (env.reset E seed).answer = .ok view) :
    view.Shows (env.reset E seed).state.tracker ∧ view.Opens := by
  rcases reset_elim (E := E) env seed with
    ⟨failure, hfailure, -⟩ | ⟨session, report, -, -, hanswer, hstate⟩
  · rw [hfailure] at h
    cases h
  · obtain rfl := Except.ok.inj (hanswer.symm.trans h)
    rw [hstate]
    exact ⟨View.shows_opening report, View.opens_opening report⟩

theorem shows_of_step {action : Index} {reply : Reply (Env σ) (Except Failure Transition)}
    {transition : Transition} (h : env.step E action = .ok reply)
    (ha : reply.answer = .ok transition) :
    transition.view.Shows reply.state.tracker ∧
      Observes env.tracker transition.view.observation reply.state.tracker := by
  obtain ⟨session, report, turn, -, -, hturn, rfl, hstate⟩ := step_ok_elim h ha
  obtain ⟨seen, shaped, hseen, -, rfl⟩ := Tracker.turn_eq_ok_iff.1 hturn
  rw [hstate]
  exact ⟨View.shows_afterStep hseen _ _, report, _, seen, shaped.paid, hseen,
    Observation.encode_settle .., rfl⟩

theorem last_of_step {action : Index} {reply : Reply (Env σ) (Except Failure Transition)}
    {transition : Transition} (h : env.step E action = .ok reply)
    (ha : reply.answer = .ok transition) : transition.last = transition.view := by
  rw [Transition.last, terminal_of_step h ha, Option.getD_none]

/-- Whatever is handed out by a call is of the moment at which the call ends. -/
inductive Entry.Timely (x : Entry σ) : Prop
  | opened {view : View} (hanswer : x.answer = .opened (.ok view))
      (hshows : view.Shows x.after.tracker) (hopens : view.Opens)
  | stepped {transition : Transition} (hanswer : x.answer = .stepped (.ok transition))
      (hshows : transition.view.Shows x.after.tracker)
      (hobserves : Observes x.before.tracker transition.view.observation x.after.tracker)
      (hterminal : transition.terminal = none)
  | silent (hnone : x.answer.view? = none)

theorem timely_of_perform {call : Call} {answer : Answer} {next : Env σ}
    (h : call.perform E env = .ok (answer, next)) :
    (⟨env, call, answer, next⟩ : Entry σ).Timely := by
  cases call with
  | reset seed =>
    cases h
    cases hopening : (env.reset E seed).answer with
    | error failure => exact .silent rfl
    | ok view =>
      obtain ⟨hshows, hopens⟩ := shows_of_reset hopening
      exact .opened rfl hshows hopens
  | step action =>
    obtain ⟨reply, hstep, rfl, rfl⟩ := perform_step_ok_elim h
    cases hmade : reply.answer with
    | error failure => exact .silent rfl
    | ok transition =>
      obtain ⟨hshows, hobserves⟩ := shows_of_step hstep hmade
      exact .stepped rfl hshows hobserves (terminal_of_step hstep hmade)
  | close =>
    cases h
    exact .silent rfl

theorem timely_of_trail {calls : List Call} {entries : List (Entry σ)}
    (h : env.trail E calls = .ok entries) : ∀ x ∈ entries, x.Timely := by
  induction calls generalizing env entries with
  | nil =>
    cases h
    simp
  | cons call calls ih =>
    obtain ⟨answer, next, later, hcall, hlater, rfl⟩ := trail_cons_ok_elim h
    exact List.forall_mem_cons.2 ⟨timely_of_perform hcall, ih hlater⟩

end Env
end BlindArena
