import BlindArena.Proofs.Env.Runs
import BlindArena.Proofs.Sandbox.Machine
import BlindArena.Proofs.Tracker.Within

/-!
# Environments over the sandbox

The sandbox launches whatever it is told to, answers every call and every read, and its figures stay
small. So an environment over it is never interrupted, and a step fails only when the environment is
closed.
-/

namespace BlindArena
namespace Sandbox

/-- The largest figure that is read. -/
def mostFigure : Int := 12375

theorem fits_mostFigure : Amount.Fits (2 * mostFigure) := by decide

/-- A sandbox that some calls lead to. -/
def Reached (s : Sandbox) : Prop := ∃ seed calls, s = (fresh seed).run calls

variable {s : Sandbox}

theorem Reached.sound (h : s.Reached) : s.Sound := by
  obtain ⟨seed, calls, rfl⟩ := h
  exact (sound_fresh seed).run calls

theorem Reached.perform (h : s.Reached) (call : Call) : (call.perform s).Reached := by
  obtain ⟨seed, calls, rfl⟩ := h
  exact ⟨seed, calls ++ [call], by simp [run]⟩

theorem Sound.upTo (h : s.Sound) : s.figures.UpTo mostFigure := by
  obtain ⟨hmoney, hmoney_le⟩ := h.bounded.money
  obtain ⟨hchips, -⟩ := h.bounded.chips
  obtain ⟨hscore, hscore_le⟩ := h.bounded.score
  exact ⟨⟨hchips.trans hscore, hscore_le⟩, ⟨hmoney, hmoney_le.trans (by decide)⟩⟩

/-- What a launch leaves. -/
theorem reached_launched (seed : UInt64) (deck : Deck) (stake : Stake) :
    ((fresh seed).configure deck stake).resetRun.Reached :=
  ⟨seed, [.configure deck stake, .start], rfl⟩

/-! ## Calls -/

/-- An environment that runs a reached sandbox, if any, and counts small figures. -/
structure Steady (env : Env Sandbox) : Prop where
  session : ∀ session, env.session = some session → session.engine.Reached
  tracker : env.tracker.Within mostFigure

variable {env : Env Sandbox}

theorem steady_of_make (config : Config) (word : UInt64) :
    ∃ env, (Env.make engine config word).1 = .ok env ∧ env.tracker.steps = 0 ∧ Steady env := by
  refine ⟨_, rfl, rfl, ?_, Tracker.within_default (by decide)⟩
  rintro _ ⟨⟩
  exact reached_launched ..

theorem steady_reset (env : Env Sandbox) (seed : Option UInt64) :
    (∃ view, (env.reset engine seed).answer = .ok view) ∧
      Steady (env.reset engine seed).state := by
  refine ⟨⟨_, rfl⟩, ?_, Tracker.within_begin (by decide) _⟩
  rintro _ ⟨⟩
  exact reached_launched ..

theorem steady_close (env : Env Sandbox) : Steady env.close :=
  ⟨by simp [Env.close], Tracker.within_default (by decide)⟩

/-- Whatever the action, the sandbox answers it, and the figures it then shows can be counted. -/
theorem Steady.turn (h : Steady env) {session : Session Sandbox}
    (hsession : env.session = some session) (index : Index) (report : Report) (penalty : Float32) :
    ∃ turn, env.tracker.turn report
        (Env.read engine (session.advance engine index).state env.tracker report.phase).1
        penalty env.config.budget = .ok turn ∧
      turn.tracker.Within mostFigure := by
  have hreached := (h.session session hsession).perform (.step (some index))
  have hread : env.tracker.Informed mostFigure report.phase
      (Env.read engine (session.advance engine index).state env.tracker report.phase).1 := by
    intro hwanted
    refine ⟨_, ?_, hreached.sound.upTo⟩
    simp only [Env.read, hwanted, if_true]
    rfl
  exact h.tracker.turn fits_mostFigure hread penalty _

theorem Steady.step (h : Steady env) (action : Index) :
    ∃ reply, env.step engine action = .ok reply ∧ Steady reply.state ∧
      (env.session = none ∧ reply.answer = .error .closed ∨
        ∃ transition, reply.answer = .ok transition) := by
  cases hstep : env.step engine action with
  | error i =>
    obtain ⟨session, report, hsession, -, hturn⟩ := Env.step_error_elim hstep
    obtain ⟨turn, hok, -⟩ := h.turn hsession _ report _
    rw [hok] at hturn
    cases hturn
  | ok reply =>
    refine ⟨reply, rfl, ?_⟩
    rcases Env.step_elim hstep with ⟨hclosed, hanswer, hstate⟩ |
      ⟨session, reason, hsession, hrefused, -, -⟩ | ⟨transition, hanswer⟩
    · exact ⟨hstate ▸ h, Or.inl ⟨hclosed, hanswer⟩⟩
    · cases hrefused
    · refine ⟨?_, Or.inr ⟨transition, hanswer⟩⟩
      obtain ⟨session, report, turn, hsession, hreport, hturn, -, hstate⟩ :=
        Env.step_ok_elim hstep hanswer
      obtain ⟨turn', hturn', hwithin⟩ := h.turn hsession _ report _
      obtain rfl := Except.ok.inj (hturn.symm.trans hturn')
      rw [hstate]
      refine ⟨?_, hwithin⟩
      rintro _ ⟨⟩
      exact (h.session session hsession).perform (.step (some _))

theorem Steady.perform (h : Steady env) (call : Env.Call) :
    ∃ answer next, call.perform engine env = .ok (answer, next) ∧ Steady next := by
  cases call with
  | reset seed => exact ⟨_, _, rfl, (steady_reset env seed).2⟩
  | step action =>
    obtain ⟨reply, hstep, hsteady, -⟩ := h.step action
    exact ⟨.stepped reply.answer, reply.state,
      by simp only [Env.Call.perform, hstep, Except.map], hsteady⟩
  | close => exact ⟨_, _, rfl, steady_close env⟩

/-- However it is driven, the sandbox stays within its bounds and the machine agrees with it at
every call. An environment over it always launches, and no run of it is interrupted; after the run
its engine is such a sandbox, every reset succeeds, and every step succeeds unless the environment
is closed. -/
theorem never_faults :
    (∀ (seed : UInt64) (calls : List Call),
      Machine.run (fresh seed) calls = .ok ((fresh seed).run calls) ∧
        ((fresh seed).run calls).Bounded) ∧
    ∀ (config : Config) (word : UInt64), ∃ env, (Env.make engine config word).1 = .ok env ∧
      ∀ calls : List Env.Call, ∃ answers last, env.run engine calls = .ok (answers, last) ∧
        last.tracker.steps ≤ calls.length ∧
        (last.session = none ∨ ∃ session, last.session = some session ∧ session.engine.Reached ∧
          ∀ action, Machine.step session.engine action = .ok (engine.step session.engine action)) ∧
        (∀ seed, ∃ view, (last.reset engine seed).answer = .ok view) ∧
        ∀ action, ∃ reply, last.step engine action = .ok reply ∧
          (last.session = none ∧ reply.answer = .error .closed ∨
            ∃ transition, reply.answer = .ok transition) := by
  refine ⟨fun seed calls => ⟨Machine.run_eq (sound_fresh seed) calls,
    ((sound_fresh seed).run calls).bounded⟩, fun config word => ?_⟩
  obtain ⟨env, hmake, hzero, hsteady⟩ := steady_of_make config word
  refine ⟨env, hmake, fun calls => ?_⟩
  obtain ⟨answers, last, hrun, hlast⟩ :=
    Env.run_total (fun env call (h : Steady env) => h.perform call) hsteady calls
  have hsteps := Env.steps_of_run hrun
  rw [hzero, zero_add] at hsteps
  refine ⟨answers, last, hrun, hsteps, ?_, fun seed => (steady_reset last seed).1, fun action => ?_⟩
  · cases hsession : last.session with
    | none => exact Or.inl rfl
    | some session =>
      have hreached := hlast.session session hsession
      exact Or.inr ⟨session, rfl, hreached, Machine.step_eq hreached.sound⟩
  · obtain ⟨reply, hstep, -, hanswer⟩ := hlast.step action
    exact ⟨reply, hstep, hanswer⟩

end Sandbox
end BlindArena
