import BlindArena.Proofs.Env.Alike
import BlindArena.Proofs.Tracker.Control
import BlindArena.Replay

/-!
# Episodes do not depend on figures

Two engines that act alike may show different figures, or one of them none at all. The same calls to
environments over them are answered alike in all but score, money and their tier, and what is paid
beside score and money is the same. So the same actions lead through the same phases to the same
endings.
-/

namespace BlindArena

/-! ## What is left of an answer without its figures -/

def Info.control (info : Info) : Info := { info with score := 0, money := 0, tier := .carried }

def Observation.control (o : Observation) : Observation :=
  { o with gameInfo := { o.gameInfo with score := 0, money := 0 } }

def View.control (view : View) : View := ⟨view.observation.control, view.info.control⟩

/-- The reward is one of the figures. -/
def Transition.control (t : Transition) : Transition where
  view := t.view.control
  reward := 0
  ending := t.ending
  terminal := t.terminal.map View.control

/-- The view after a reset is kept as it is: it shows no figures yet. -/
def Env.Answer.control : Env.Answer → Env.Answer
  | opened answer => opened answer
  | stepped answer => stepped (answer.map Transition.control)
  | closed => closed

theorem View.control_afterStep {report : Report} {t u : Tracker} (h : t.control = u.control)
    (resolution : Resolution) :
    (View.afterStep report t resolution).control =
      (View.afterStep report u resolution).control := by
  have hleft : (View.afterStep report t resolution).control =
      (View.afterStep report t.control resolution).control := rfl
  rw [hleft, h]
  rfl

namespace Env
variable {σ τ : Type} {R : σ → τ → Prop} {E : Engine σ} {F : Engine τ}

def shares (E : Engine σ) (env : Env σ) (action : Index) : Option Breakdown :=
  match env.session with
  | none => none
  | some session =>
    let resolution := Resolution.resolve action env.tracker.legal
    let advanced := session.advance E resolution.effective
    match advanced.answer with
    | .error _ => none
    | .ok report =>
      let figures := (read E advanced.state env.tracker report.phase).1
      match env.tracker.turn report figures resolution.penalty env.config.budget with
      | .error _ => none
      | .ok turn => some turn.shaped

theorem shares_of_turn {env : Env σ} {session : Session σ} {action : Index} {report : Report}
    {turn : Turn} (hsession : env.session = some session) :
    let resolution := Resolution.resolve action env.tracker.legal
    let advanced := session.advance E resolution.effective
    advanced.answer = .ok report →
      env.tracker.turn report (read E advanced.state env.tracker report.phase).1
        resolution.penalty env.config.budget = .ok turn →
      env.shares E action = some turn.shaped := by
  intro resolution advanced hadvanced hturn
  rw [shares, hsession]
  dsimp only
  rw [hadvanced]
  dsimp only
  rw [hturn]

namespace Alike

abbrev Controlled (R : σ → τ → Prop) (env : Env σ) (env' : Env τ) : Prop :=
  env.Alike R (fun t u => t.control = u.control) env'

variable {env last : Env σ} {env' last' : Env τ}

theorem Controlled.step (hEF : E.Alike R F) (h : Controlled R env env') {action : Index}
    {reply : Reply (Env σ) (Except Failure Transition)}
    {reply' : Reply (Env τ) (Except Failure Transition)} (hstep : env.step E action = .ok reply)
    (hstep' : env'.step F action = .ok reply') :
    (Answer.stepped reply.answer).control = (Answer.stepped reply'.answer).control ∧
      Controlled R reply.state reply'.state := by
  obtain ⟨config, seed, session, tracker⟩ := env
  obtain ⟨config', seed', session', tracker'⟩ := env'
  obtain ⟨rfl, rfl, hsession, htracker⟩ := h
  have hlegal : tracker.legal = tracker'.legal := Tracker.legal_of_control htracker
  unfold Env.step at hstep hstep'
  cases hsession with
  | none =>
    cases hstep
    cases hstep'
    exact ⟨rfl, rfl, rfl, .none, htracker⟩
  | @some s t hst =>
    obtain ⟨hanswer, hadvanced⟩ :=
      Session.Alike.step hEF hst (some (Resolution.resolve action tracker.legal).effective)
    simp only [Session.advance, ← hlegal, ← hanswer] at hstep hstep'
    split at hstep
    · rename_i reason hreason
      simp only [hreason] at hstep'
      cases hstep
      cases hstep'
      exact ⟨rfl, rfl, rfl, .some hadvanced, htracker⟩
    · rename_i report hreport
      simp only [hreport, conclude] at hstep hstep'
      split at hstep
      · cases hstep
      · rename_i turn hturn
        split at hstep'
        · cases hstep'
        · rename_i turn' hturn'
          cases hstep
          cases hstep'
          have hagrees := Tracker.turn_agrees htracker hturn hturn'
          refine ⟨?_, rfl, rfl, .some hadvanced, hagrees.control⟩
          simp only [Answer.control, Except.map, Transition.control, hagrees.ending,
            View.control_afterStep hagrees.control]

theorem Controlled.shares (hEF : E.Alike R F) (h : Controlled R env env') {action : Index}
    {shaped shaped' : Breakdown} (hs : env.shares E action = some shaped)
    (hs' : env'.shares F action = some shaped') :
    shaped.bonus = shaped'.bonus ∧ shaped.step = shaped'.step ∧ shaped.remap = shaped'.remap := by
  obtain ⟨config, seed, session, tracker⟩ := env
  obtain ⟨config', seed', session', tracker'⟩ := env'
  obtain ⟨rfl, rfl, hsession, htracker⟩ := h
  have hlegal : tracker.legal = tracker'.legal := Tracker.legal_of_control htracker
  unfold Env.shares at hs hs'
  cases hsession with
  | none => cases hs
  | @some s t hst =>
    obtain ⟨hanswer, hadvanced⟩ :=
      Session.Alike.step hEF hst (some (Resolution.resolve action tracker.legal).effective)
    simp only [Session.advance, ← hlegal, ← hanswer] at hs hs'
    split at hs
    · cases hs
    · rename_i report hreport
      simp only [hreport] at hs'
      split at hs
      · cases hs
      · rename_i turn hturn
        split at hs'
        · cases hs'
        · rename_i turn' hturn'
          cases hs
          cases hs'
          have hagrees := Tracker.turn_agrees htracker hturn hturn'
          exact ⟨hagrees.bonus, hagrees.step, hagrees.remap⟩

theorem Controlled.run (hEF : E.Alike R F) (h : Controlled R env env') {calls : List Call}
    {answers answers' : List Answer} (hrun : env.run E calls = .ok (answers, last))
    (hrun' : env'.run F calls = .ok (answers', last')) :
    answers.map Answer.control = answers'.map Answer.control ∧ Controlled R last last' := by
  induction calls generalizing env env' answers answers' with
  | nil =>
    cases hrun
    cases hrun'
    exact ⟨rfl, h⟩
  | cons call calls ih =>
    obtain ⟨answer, next, later, hperform, hlater, rfl⟩ := run_cons_ok_elim hrun
    obtain ⟨answer', next', later', hperform', hlater', rfl⟩ := run_cons_ok_elim hrun'
    obtain ⟨hanswer, hnext⟩ : answer.control = answer'.control ∧ Controlled R next next' := by
      cases call with
      | reset seed =>
        cases hperform
        cases hperform'
        obtain ⟨hopened, hstate⟩ := Alike.reset hEF (fun t => Eq.refl t.control) h seed
        exact ⟨congrArg Answer.opened hopened, hstate⟩
      | step action =>
        obtain ⟨reply, hstep, rfl, rfl⟩ := perform_step_ok_elim hperform
        obtain ⟨reply', hstep', rfl, rfl⟩ := perform_step_ok_elim hperform'
        exact h.step hEF hstep hstep'
      | close =>
        cases hperform
        cases hperform'
        exact ⟨rfl, Alike.close (fun t => Eq.refl t.control) h⟩
    obtain ⟨hanswers, hlast⟩ := ih hnext hlater hlater'
    exact ⟨by rw [List.map_cons, List.map_cons, hanswer, hanswers], hlast⟩

end Alike

/-- Runs of turns that differ in their reads only, and runs of calls to environments over engines
that differ in the figures they show only. -/
theorem control_ignores_reads :
    (∀ (t : Tracker) report read, t.wantsRead report.phase = false →
      t.observe report read = t.observe report none) ∧
    (∀ first cues cues' ms ms', cues.map Cue.unread = cues'.map Cue.unread →
      (Tracker.begin first).moves cues = .ok ms → (Tracker.begin first).moves cues' = .ok ms' →
      ms.length = cues.length ∧ ms'.length = cues.length ∧
      ∀ (k : Nat) (m m' : Move), ms[k]? = some m → ms'[k]? = some m' →
        m.before.wantsRead m.cue.report.phase = m'.before.wantsRead m'.cue.report.phase ∧
        m.turn.tracker =
          { m'.turn.tracker with
            baseline := m.turn.tracker.baseline
            current := m.turn.tracker.current
            previous := m.turn.tracker.previous
            tier := m.turn.tracker.tier } ∧
        m.turn.shaped.bonus = m'.turn.shaped.bonus ∧ m.turn.shaped.step = m'.turn.shaped.step ∧
        m.turn.shaped.remap = m'.turn.shaped.remap ∧ m.turn.ending = m'.turn.ending) ∧
    ∀ {σ τ : Type} (R : σ → τ → Prop) (E : Engine σ) (F : Engine τ), E.Alike R F →
      ∀ config word made made' calls answers answers' last last',
        (make E config word).1 = .ok made → (make F config word).1 = .ok made' →
        made.run E calls = .ok (answers, last) → made'.run F calls = .ok (answers', last') →
        answers.map Answer.control = answers'.map Answer.control ∧
        last.tracker.control = last'.tracker.control ∧
        ∀ action shaped shaped', last.shares E action = some shaped →
          last'.shares F action = some shaped' →
          shaped.bonus = shaped'.bonus ∧ shaped.step = shaped'.step ∧
            shaped.remap = shaped'.remap := by
  refine ⟨fun t report read => Tracker.observe_of_not_wantsRead, ?_, ?_⟩
  · intro first cues cues' ms ms' hsame h h'
    have hagrees := Tracker.agrees_of_moves rfl hsame h h'
    have hlength : ms.length = cues.length := by
      rw [← Tracker.cues_of_moves h, List.length_map]
    refine ⟨hlength, hagrees.length_eq ▸ hlength, ?_⟩
    intro k m m' hm hm'
    obtain ⟨hk, rfl⟩ := List.getElem?_eq_some_iff.1 hm
    obtain ⟨hk', rfl⟩ := List.getElem?_eq_some_iff.1 hm'
    have hmove := hagrees.get hk hk'
    exact ⟨hmove.wants, Tracker.eq_with_of_control hmove.control, hmove.bonus, hmove.step,
      hmove.remap, hmove.ending⟩
  · intro σ τ R E F hEF config word made made' calls answers answers' last last' hmake hmake' hrun
      hrun'
    have hmade := Alike.make (T := fun t u => t.control = u.control) hEF (fun _ => rfl) config word
    rw [hmake, hmake'] at hmade
    cases hmade with
    | ok hmade =>
      obtain ⟨hanswers, hlast⟩ := Alike.Controlled.run hEF hmade hrun hrun'
      exact ⟨hanswers, hlast.tracker, fun action shaped shaped' hs hs' =>
        Alike.Controlled.shares hEF hlast hs hs'⟩

end Env

/-- A script acts alike with its figures and without them. -/
theorem Script.alike_mute (script : Script) : script.engine.Alike Eq script.mute where
  seeded seed := by
    simp only [Script.engine, Script.mute]
    split
    · exact .error _
    · exact .ok rfl
  configure h deck stake := by
    subst h
    rfl
  start h := by
    subst h
    exact ⟨rfl, rfl⟩
  step h action := by
    subst h
    exact ⟨rfl, rfl⟩

namespace Env

def short : Script where
  frames := [{ report := some (.input .blindSelect [⟨1, "select"⟩]), figures := some ⟨0, 4⟩ },
    { report := some (.input .playing [⟨0, "play"⟩]), figures := some ⟨0, 4⟩ },
    { report := some (.input .playing [⟨0, "play"⟩]), figures := some ⟨120, 4⟩ },
    { report := some (.input .roundEnd [⟨0, "cash out"⟩]), figures := some ⟨300, 9⟩ }]

/-- The bonus is paid for a blind whether figures are read throughout, in part or not at all. -/
theorem control_ignores_reads_of_short :
    (let cue (phase : Phase) (read : Option Snapshot) : Cue := ⟨.input phase [], read, 0, 9⟩
      let first := Report.input .blindSelect []
      ∃ ms ms' : List Move, ∃ m m' : Move,
        (Tracker.begin first).moves [cue .playing (some ⟨0, 4⟩), cue .playing (some ⟨120, 4⟩),
          cue .roundEnd (some ⟨300, 9⟩)] = .ok ms ∧
        (Tracker.begin first).moves [cue .playing none, cue .playing (some ⟨70, 0⟩),
          cue .roundEnd none] = .ok ms' ∧
        ms[2]? = some m ∧ ms'[2]? = some m' ∧
        m.turn.shaped.bonus = m'.turn.shaped.bonus ∧ m.turn.ending = m'.turn.ending) ∧
    ∃ made made' answers answers' last last',
      (make short.engine {} 4).1 = .ok made ∧ (make short.mute {} 4).1 = .ok made' ∧
      made.run short.engine [.reset none, .step 1, .step 7] = .ok (answers, last) ∧
      made'.run short.mute [.reset none, .step 1, .step 7] = .ok (answers', last') ∧
      last.tracker.current = ⟨120, 0⟩ ∧ last'.tracker.current = ⟨0, 0⟩ ∧
      answers.map Answer.control = answers'.map Answer.control ∧
      ∃ shaped shaped', last.shares short.engine 0 = some shaped ∧
        last'.shares short.mute 0 = some shaped' ∧ shaped.bonus = shaped'.bonus := by
  obtain ⟨-, hmoves, hruns⟩ := control_ignores_reads
  constructor
  · intro cue first
    obtain ⟨ms, ms', m, m', h, h', hm, hm'⟩ : ∃ ms ms' : List Move, ∃ m m' : Move,
        (Tracker.begin first).moves [cue .playing (some ⟨0, 4⟩), cue .playing (some ⟨120, 4⟩),
          cue .roundEnd (some ⟨300, 9⟩)] = .ok ms ∧
        (Tracker.begin first).moves [cue .playing none, cue .playing (some ⟨70, 0⟩),
          cue .roundEnd none] = .ok ms' ∧
        ms[2]? = some m ∧ ms'[2]? = some m' := ⟨_, _, _, _, rfl, rfl, rfl, rfl⟩
    obtain ⟨-, -, hagree⟩ := hmoves _ _ _ _ _ (by rfl) h h'
    obtain ⟨-, -, hbonus, -, -, hending⟩ := hagree 2 m m' hm hm'
    exact ⟨ms, ms', m, m', h, h', hm, hm', hbonus, hending⟩
  · obtain ⟨made, made', answers, answers', last, last', shaped, shaped', hmake, hmake', hrun,
        hrun', hcurrent, hcurrent', hshares, hshares'⟩ :
        ∃ made made' answers answers' last last' shaped shaped',
          (make short.engine {} 4).1 = .ok made ∧ (make short.mute {} 4).1 = .ok made' ∧
          made.run short.engine [.reset none, .step 1, .step 7] = .ok (answers, last) ∧
          made'.run short.mute [.reset none, .step 1, .step 7] = .ok (answers', last') ∧
          last.tracker.current = ⟨120, 0⟩ ∧ last'.tracker.current = ⟨0, 0⟩ ∧
          last.shares short.engine 0 = some shaped ∧ last'.shares short.mute 0 = some shaped' :=
      ⟨_, _, _, _, _, _, _, _, rfl, rfl, rfl, rfl, rfl, rfl, rfl, rfl⟩
    obtain ⟨hanswers, -, hagree⟩ :=
      hruns Eq _ _ short.alike_mute {} 4 _ _ _ _ _ _ _ hmake hmake' hrun hrun'
    exact ⟨made, made', answers, answers', last, last', hmake, hmake', hrun, hrun', hcurrent,
      hcurrent', hanswers, shaped, shaped', hshares, hshares', (hagree 0 _ _ hshares hshares').1⟩

end Env
end BlindArena
