import BlindArena.Env.Lemmas

/-!
# Runs of calls to an environment

An environment may be reset, stepped and closed in any order, and each of these calls may fail. A
failing call is answered too and the run goes on from the state it leaves; only an interruption
ends a run. What every call keeps, of the answers so far and the environment after them, holds after
any run.
-/

namespace BlindArena
namespace Env

inductive Call where
  | reset (seed : Option UInt64)
  | step (action : Index)
  | close

inductive Answer where
  | opened (answer : Except Failure View)
  | stepped (answer : Except Failure Transition)
  | closed

/-- The view that is handed out, if one is. -/
def Answer.view? : Answer → Option View
  | opened (.ok view) => some view
  | stepped (.ok transition) => some transition.view
  | _ => none

/-- The view handed out last. -/
def lastView (answers : List Answer) : Option View := (answers.filterMap Answer.view?).getLast?

theorem lastView_concat (past : List Answer) (answer : Answer) :
    lastView (past ++ [answer]) = answer.view?.or (lastView past) := by
  cases h : answer.view? <;> simp [lastView, h, List.getLast?_append]

variable {σ : Type} (E : Engine σ)

def Call.perform (env : Env σ) : Call → Except Interruption (Answer × Env σ)
  | reset seed => .ok (.opened (env.reset E seed).answer, (env.reset E seed).state)
  | step action => (env.step E action).map fun reply => (.stepped reply.answer, reply.state)
  | close => .ok (.closed, env.close)

/-- The answers to calls in a row and the environment after them. -/
def run (env : Env σ) : List Call → Except Interruption (List Answer × Env σ)
  | [] => .ok ([], env)
  | call :: calls =>
    match call.perform E env with
    | .error i => .error i
    | .ok (answer, next) => (next.run calls).map fun (answers, last) => (answer :: answers, last)

variable {E} {env last : Env σ} {answers : List Answer}

theorem perform_step_ok_elim {action : Index} {answer : Answer} {next : Env σ}
    (h : Call.perform E env (.step action) = .ok (answer, next)) :
    ∃ reply, env.step E action = .ok reply ∧ answer = .stepped reply.answer ∧
      next = reply.state := by
  cases hstep : env.step E action with
  | error i => simp [Call.perform, hstep, Except.map] at h
  | ok reply =>
    simp only [Call.perform, hstep, Except.map, Except.ok.injEq, Prod.mk.injEq] at h
    exact ⟨reply, rfl, h.1.symm, h.2.symm⟩

theorem run_cons_ok_elim {call : Call} {calls : List Call}
    (h : env.run E (call :: calls) = .ok (answers, last)) :
    ∃ answer next later, call.perform E env = .ok (answer, next) ∧
      next.run E calls = .ok (later, last) ∧ answers = answer :: later := by
  cases hcall : call.perform E env with
  | error i => simp [run, hcall] at h
  | ok performed =>
    obtain ⟨answer, next⟩ := performed
    cases hlater : next.run E calls with
    | error i => simp [run, hcall, hlater, Except.map] at h
    | ok rest =>
      obtain ⟨later, last'⟩ := rest
      simp only [run, hcall, hlater, Except.map, Except.ok.injEq, Prod.mk.injEq] at h
      obtain ⟨rfl, rfl⟩ := h
      exact ⟨answer, next, later, rfl, hlater, rfl⟩

/-- What every call keeps, of the answers so far and the environment after them, holds at the end of
a run that goes on from such answers. -/
theorem invariant_of_run {P : List Answer → Env σ → Prop}
    (hcall : ∀ past env call answer next, P past env →
      Call.perform E env call = .ok (answer, next) → P (past ++ [answer]) next)
    {calls : List Call} (past : List Answer) (hpast : P past env)
    (hrun : env.run E calls = .ok (answers, last)) : P (past ++ answers) last := by
  induction calls generalizing env past answers with
  | nil =>
    cases hrun
    simpa using hpast
  | cons call calls ih =>
    obtain ⟨answer, next, later, hperform, hlater, rfl⟩ := run_cons_ok_elim hrun
    have hnext := hcall past env call answer next hpast hperform
    simpa using ih _ hnext hlater

/-- If no call is interrupted where some property holds, and every call keeps it, then no run from
there is interrupted. -/
theorem run_total {P : Env σ → Prop}
    (hcall : ∀ env call, P env →
      ∃ answer next, Call.perform E env call = .ok (answer, next) ∧ P next)
    (henv : P env) (calls : List Call) :
    ∃ answers last, env.run E calls = .ok (answers, last) ∧ P last := by
  induction calls generalizing env with
  | nil => exact ⟨[], env, rfl, henv⟩
  | cons call calls ih =>
    obtain ⟨answer, next, hperform, hnext⟩ := hcall env call henv
    obtain ⟨answers, last, hrun, hlast⟩ := ih hnext
    exact ⟨answer :: answers, last, by simp only [run, hperform, hrun, Except.map], hlast⟩

theorem length_of_run {calls : List Call} (h : env.run E calls = .ok (answers, last)) :
    answers.length = calls.length := by
  induction calls generalizing env answers with
  | nil =>
    cases h
    rfl
  | cons call calls ih =>
    obtain ⟨answer, next, later, -, hlater, rfl⟩ := run_cons_ok_elim h
    simp [ih hlater]

/-- A call counts one step at most. -/
theorem steps_of_perform {call : Call} {answer : Answer} {next : Env σ}
    (h : call.perform E env = .ok (answer, next)) :
    next.tracker.steps ≤ env.tracker.steps + 1 := by
  cases call with
  | reset seed =>
    cases h
    rcases reset_elim (E := E) env seed with ⟨-, -, hstate⟩ | ⟨session, report, -, -, -, hstate⟩
    · simp [hstate]
    · simp [hstate]
  | step action =>
    obtain ⟨reply, hstep, -, rfl⟩ := perform_step_ok_elim h
    rcases step_elim hstep with ⟨-, -, hstate⟩ | ⟨_, _, -, -, -, hstate⟩ | ⟨transition, hanswer⟩
    · simp [hstate]
    · simp [hstate]
    · exact Nat.le_of_eq (steps_of_step hstep hanswer)
  | close =>
    cases h
    simp [close]

theorem steps_of_run {calls : List Call} (h : env.run E calls = .ok (answers, last)) :
    last.tracker.steps ≤ env.tracker.steps + calls.length := by
  have hlast := invariant_of_run
    (P := fun past later => later.tracker.steps ≤ env.tracker.steps + past.length)
    (fun past later call answer next hlater hperform => by
      have := steps_of_perform hperform
      simp only [List.length_append, List.length_singleton]
      omega) [] (by simp) h
  rw [← length_of_run h]
  simpa using hlast

end Env
end BlindArena
