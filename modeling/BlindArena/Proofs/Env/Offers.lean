import BlindArena.Proofs.Env.Alike
import BlindArena.Replay

/-!
# What is offered, shown and sent

An engine can be made to keep a log of its exchanges; environments over it act as over the engine
itself. By this log the tracker always holds the indices last offered by the engine at work, so the
engine is never sent an index that it does not offer, except for 0 when it offers nothing. The view
handed out last lists the same indices, and by them an action passes or is replaced.
-/

namespace BlindArena
variable {σ : Type}

/-! ## Logs -/

/-- A request to step and what came of it. -/
structure Exchange where
  action : Option Index
  answer : Except String Report

/-- An engine and its exchanges so far, oldest first. -/
structure Logged (σ : Type) where
  engine : σ
  exchanges : List Exchange := []

def Engine.logged (E : Engine σ) : Engine (Logged σ) where
  seeded seed :=
    let made := E.seeded seed
    ⟨made.value.map fun engine => ⟨engine, []⟩, made.output⟩
  configure l deck stake :=
    let configured := E.configure l.engine deck stake
    ⟨{ l with engine := configured.value }, configured.output⟩
  start l :=
    let started := E.start l.engine
    ⟨(started.value.1, { l with engine := started.value.2 }), started.output⟩
  step l action :=
    let stepped := E.step l.engine action
    ⟨(stepped.value.1, ⟨stepped.value.2, l.exchanges ++ [⟨action, stepped.value.1⟩]⟩),
      stepped.output⟩
  snapshot l := E.snapshot l.engine

theorem Engine.alike_logged (E : Engine σ) :
    E.Alike (fun engine (l : Logged σ) => l.engine = engine) E.logged where
  seeded seed := by
    simp only [Engine.logged]
    cases (E.seeded seed).value with
    | error reason => exact .error _
    | ok engine => exact .ok rfl
  configure h deck stake := by
    subst h
    rfl
  start h := by
    subst h
    exact ⟨rfl, rfl⟩
  step h action := by
    subst h
    exact ⟨rfl, rfl⟩

namespace Exchange

/-- The indices of the last report; none before the first. -/
def offered (exchanges : List Exchange) : List Index :=
  ((exchanges.filterMap fun x => x.answer.toOption).getLast?.map Report.legal).getD []

@[simp] theorem offered_nil : offered [] = [] := rfl

@[simp] theorem offered_concat_ok (past : List Exchange) (action : Option Index)
    (report : Report) : offered (past ++ [⟨action, .ok report⟩]) = report.legal := by
  simp [offered, Except.toOption]

@[simp] theorem offered_concat_error (past : List Exchange) (action : Option Index)
    (reason : String) : offered (past ++ [⟨action, .error reason⟩]) = offered past := by
  simp [offered, Except.toOption]

/-- Every index was on offer when it was sent, or was 0 while nothing was. -/
def Heeded (exchanges : List Exchange) : Prop :=
  ∀ k index answer, exchanges[k]? = some ⟨some index, answer⟩ →
    index ∈ offered (exchanges.take k) ∨ offered (exchanges.take k) = [] ∧ index = 0

theorem heeded_nil : Heeded [] := by simp [Heeded]

theorem Heeded.concat {past : List Exchange} (h : Heeded past) (x : Exchange)
    (hx : ∀ index, x.action = some index →
      index ∈ offered past ∨ offered past = [] ∧ index = 0) : Heeded (past ++ [x]) := by
  intro k index answer hk
  rcases Nat.lt_trichotomy k past.length with hlt | rfl | hgt
  · rw [List.getElem?_append_left hlt] at hk
    rw [List.take_append_of_le_length (Nat.le_of_lt hlt)]
    exact h k index answer hk
  · rw [List.take_left]
    simp only [List.getElem?_concat_length, Option.some.injEq] at hk
    exact hx index (by rw [hk])
  · rw [List.getElem?_eq_none (by rw [List.length_append]; exact hgt)] at hk
    cases hk

end Exchange

open Exchange

namespace Env

/-- The environment as it is without the log. -/
def unlogged (env : Env (Logged σ)) : Env σ where
  config := env.config
  seed := env.seed
  session := env.session.map fun session => ⟨session.engine.engine, session.quiet⟩
  tracker := env.tracker

theorem unlogged_of_alike {env : Env σ} {logged : Env (Logged σ)}
    (h : env.Alike (fun engine (l : Logged σ) => l.engine = engine) Eq logged) :
    logged.unlogged = env := by
  obtain ⟨config, seed, session, tracker⟩ := env
  obtain ⟨config', seed', session', tracker'⟩ := logged
  obtain ⟨rfl, rfl, hsession, rfl⟩ := h
  cases hsession with
  | none => rfl
  | @some s l hsl =>
    obtain ⟨engine, quiet⟩ := s
    obtain ⟨hengine, hquiet⟩ := hsl
    subst hengine hquiet
    rfl

/-- The indices last offered by the engine at work. -/
def offered (env : Env (Logged σ)) : List Index :=
  env.session.elim [] fun session => Exchange.offered session.engine.exchanges

/-- What the tracker and the view handed out last say is what the engine at work offers. -/
structure Faithful (env : Env (Logged σ)) (shown : Option View) : Prop where
  legal : env.tracker.legal = env.offered
  heeded : ∀ session, env.session = some session → Heeded session.engine.exchanges
  valid : env.session ≠ none → ∀ view, shown = some view → view.info.valid = env.offered
  masked : ∀ view, shown = some view →
    view.observation.available = Mask.ofIndices view.info.valid

end Env

/-! ## Calls -/

variable {E : Engine σ}

theorem Session.exchanges_of_launch {seed : UInt64} {deck : Deck} {stake : Stake} {quiet : Bool}
    {session : Session (Logged σ)}
    (h : (Session.launch E.logged seed deck stake quiet).1 = .ok session) :
    session.engine.exchanges = [] := by
  simp only [Session.launch, Engine.logged] at h
  cases hmade : (E.seeded seed).value with
  | error reason => simp [hmade, Except.map] at h
  | ok engine =>
    simp only [hmade, Except.map] at h
    split at h
    · cases h
    · rename_i hstarted
      cases h
      exact congrArg (fun p => p.2.exchanges) hstarted.symm

theorem Session.exchanges_of_step {session : Session (Logged σ)} {action : Option Index}
    {answer : Except String Report} (h : (session.step E.logged action).answer = answer) :
    (session.step E.logged action).state.engine.exchanges =
      session.engine.exchanges ++ [⟨action, answer⟩] := by
  subst h
  rfl

namespace Env.Faithful
variable {env : Env (Logged σ)} {shown : Option View}

theorem of_make {config : Config} {word : UInt64}
    (h : (Env.make E.logged config word).1 = .ok env) : env.Faithful none := by
  obtain ⟨session, hlaunch, rfl⟩ := make_eq_ok_iff.1 h
  have hnone := Session.exchanges_of_launch hlaunch
  refine ⟨?_, ?_, by simp, by simp⟩
  · simp [Env.offered, hnone]
  · rintro _ ⟨⟩
    rw [hnone]
    exact heeded_nil

theorem reset (h : env.Faithful shown) (seed : Option UInt64) :
    (env.reset E.logged seed).state.Faithful
      ((Answer.opened (env.reset E.logged seed).answer).view?.or shown) := by
  rcases reset_elim (E := E.logged) env seed with
    ⟨failure, hanswer, hstate⟩ | ⟨session, report, hlaunch, hprobe, hanswer, hstate⟩
  · rw [hanswer, hstate]
    exact ⟨h.legal, h.heeded, h.valid, h.masked⟩
  · rw [hanswer, hstate]
    have hexchanges := Session.exchanges_of_step hprobe
    rw [Session.exchanges_of_launch hlaunch, List.nil_append] at hexchanges
    change (session.probe E.logged).state.engine.exchanges = _ at hexchanges
    have hoffered : Exchange.offered [⟨none, .ok report⟩] = report.legal :=
      offered_concat_ok [] none report
    refine ⟨?_, ?_, ?_, ?_⟩
    · simp only [Env.offered, Option.elim_some, hexchanges, hoffered]
      rfl
    · rintro _ ⟨⟩
      rw [hexchanges]
      exact heeded_nil.concat ⟨none, .ok report⟩ (by simp)
    · rintro - view ⟨⟩
      simp only [Env.offered, Option.elim_some, hexchanges, hoffered]
      rfl
    · rintro view ⟨⟩
      rfl

/-- The log stays heeded when the tracker's choice is sent. -/
theorem heeded_advance (h : env.Faithful shown) {session : Session (Logged σ)}
    (hsession : env.session = some session) (action : Index) :
    Heeded (session.advance E.logged
      (Resolution.resolve action env.tracker.legal).effective).state.engine.exchanges := by
  have hoffered : Exchange.offered session.engine.exchanges = env.tracker.legal := by
    rw [h.legal, Env.offered, hsession, Option.elim_some]
  rw [Session.advance, Session.exchanges_of_step rfl]
  refine (h.heeded session hsession).concat _ ?_
  rintro index ⟨⟩
  rw [hoffered]
  exact Resolution.effective_resolve action env.tracker.legal

theorem step (h : env.Faithful shown) {action : Index}
    {reply : Reply (Env (Logged σ)) (Except Failure Transition)}
    (hstep : env.step E.logged action = .ok reply) :
    reply.state.Faithful ((Answer.stepped reply.answer).view?.or shown) := by
  rcases step_elim hstep with ⟨-, hanswer, hstate⟩ |
    ⟨session, reason, hsession, hadvanced, hanswer, hstate⟩ | ⟨transition, hanswer⟩
  · rw [hanswer, hstate]
    exact ⟨h.legal, h.heeded, h.valid, h.masked⟩
  · have hexchanges := Session.exchanges_of_step hadvanced
    have hoffered : Env.offered reply.state = env.offered := by
      simp [hstate, Env.offered, hsession, Session.advance, hexchanges]
    rw [hanswer]
    refine ⟨?_, ?_, ?_, h.masked⟩
    · rw [hoffered, hstate]
      exact h.legal
    · rw [hstate]
      rintro _ ⟨⟩
      exact h.heeded_advance hsession action
    · rw [hoffered]
      exact fun _ => h.valid (by simp [hsession])
  · obtain ⟨session, report, turn, hsession, hadvanced, hturn, rfl, hstate⟩ :=
      step_ok_elim hstep hanswer
    have hlegal : turn.tracker.legal = report.legal := Tracker.legal_of_turn hturn
    have hexchanges := Session.exchanges_of_step hadvanced
    have hoffered : Env.offered reply.state = report.legal := by
      simp [hstate, Env.offered, Session.advance, hexchanges]
    rw [hanswer]
    refine ⟨?_, ?_, ?_, ?_⟩
    · rw [hoffered, hstate, hlegal]
    · rw [hstate]
      rintro _ ⟨⟩
      exact h.heeded_advance hsession action
    · rw [hoffered]
      rintro - view ⟨⟩
      exact hlegal
    · rintro view ⟨⟩
      exact congrArg Mask.ofIndices hlegal.symm

theorem close (h : env.Faithful shown) : env.close.Faithful shown where
  legal := rfl
  heeded := by simp [Env.close]
  valid := by simp [Env.close]
  masked := h.masked

theorem of_run {calls : List Call} {answers : List Answer} {last : Env (Logged σ)}
    (h : env.Faithful none) (hrun : env.run E.logged calls = .ok (answers, last)) :
    last.Faithful (lastView answers) := by
  refine invariant_of_run (P := fun past env => env.Faithful (lastView past)) ?_ [] h hrun
  intro past env call answer next hpast hperform
  rw [lastView_concat]
  cases call with
  | reset seed =>
    cases hperform
    exact hpast.reset seed
  | step action =>
    obtain ⟨reply, hstep, rfl, rfl⟩ := perform_step_ok_elim hperform
    exact hpast.step hstep
  | close =>
    cases hperform
    exact hpast.close

end Env.Faithful

namespace Env

/-- Any calls to an environment, with the same calls to one whose engine keeps a log. -/
theorem enforces_offers {config : Config} {word : UInt64} {made last : Env σ} {calls : List Call}
    {answers : List Answer} (hmake : (make E config word).1 = .ok made)
    (hrun : made.run E calls = .ok (answers, last)) :
    ∃ opened logged : Env (Logged σ), (make E.logged config word).1 = .ok opened ∧
      opened.run E.logged calls = .ok (answers, logged) ∧ logged.unlogged = last ∧
      last.tracker.legal = logged.offered ∧
      (∀ session, logged.session = some session → Heeded session.engine.exchanges) ∧
      (∀ action i, last.step E action = .error i → ∃ session report,
        let index := (Resolution.resolve action last.tracker.legal).effective
        logged.session = some session ∧ (session.advance E.logged index).answer = .ok report ∧
        Heeded (session.advance E.logged index).state.engine.exchanges) ∧
      ∀ view, lastView answers = some view →
        (∀ action stepped transition, last.step E action = .ok stepped →
          stepped.answer = .ok transition →
          (transition.view.info.remapped = false ∧ transition.view.info.effective = some action ↔
            action ∈ view.info.valid)) ∧
        ∀ action < actionSpace,
          (action ∈ view.info.valid ↔ view.observation.available.get action = true) := by
  have hopened := Alike.make E.alike_logged (T := Eq) (fun _ => rfl) config word
  rw [hmake] at hopened
  generalize hlogged : (make E.logged config word).1 = result at hopened
  cases hopened with
  | @ok _ opened hopened =>
    obtain ⟨logged, hrunLogged, hlast⟩ :=
      hopened.run (fun h => by rw [← h]; rfl) E.alike_logged hrun
    have hfaithful := (Faithful.of_make hlogged).of_run hrunLogged
    have htracker : last.tracker = logged.tracker := hlast.tracker
    refine ⟨opened, logged, rfl, hrunLogged, unlogged_of_alike hlast, ?_, hfaithful.heeded, ?_, ?_⟩
    · rw [htracker]
      exact hfaithful.legal
    · intro action i hinterrupted
      obtain ⟨session, report, hsession, hanswer, -⟩ := step_error_elim hinterrupted
      have hrelated := hlast.session
      rw [hsession] at hrelated
      generalize hlog : logged.session = present at hrelated
      cases hrelated with
      | @some _ session' hrelated =>
        refine ⟨session', report, rfl, ?_, ?_⟩
        · exact (Session.Alike.step E.alike_logged hrelated _).1.symm.trans hanswer
        · rw [htracker]
          exact hfaithful.heeded_advance hlog action
    · intro view hview
      refine ⟨?_, ?_⟩
      · intro action stepped transition hstep htransition
        obtain ⟨session, report, turn, hsession, -, -, rfl, -⟩ := step_ok_elim hstep htransition
        have hopen : logged.session ≠ none := by
          intro hnone
          have hrelated := hlast.session
          rw [hsession, hnone] at hrelated
          cases hrelated
        have hvalid : view.info.valid = last.tracker.legal := by
          rw [hfaithful.valid hopen view hview, htracker, hfaithful.legal]
        rw [hvalid, ← Resolution.passes_iff]
        simp [View.afterStep, Info.resolved]
      · intro action haction
        rw [hfaithful.masked view hview, Mask.get_ofIndices]
        simp [haction]

/-- The engine refuses a seed, fails once, and offers an index twice and one that has no bit. -/
def busy : Script where
  frames := [{ report := some (.input .blindSelect [⟨1, "select"⟩, ⟨2, "skip"⟩]) },
    { failure := some "busy" },
    { report := some (.input .playing [⟨5, "a"⟩, ⟨150, "b"⟩, ⟨5, "c"⟩]) },
    { report := some (.input .shop [⟨0, "leave"⟩]) }]
  refused := [9]

/-- Steps before any reset and after failing calls, and then the index past the mask. -/
theorem enforces_offers_of_busy :
    ∃ made answers last view stepped transition,
      (make busy.engine {} 4).1 = .ok made ∧
      made.run busy.engine [.step 7, .reset (some 3), .step 8, .reset (some 9), .step 2] =
        .ok (answers, last) ∧
      lastView answers = some view ∧ last.step busy.engine 150 = .ok stepped ∧
      stepped.answer = .ok transition ∧
      transition.view.info.remapped = false ∧ transition.view.info.effective = some 150 ∧
      view.observation.available.get 5 = true ∧ view.observation.available.get 6 = false := by
  obtain ⟨made, answers, last, view, stepped, transition, hmake, hrun, hview, hvalid, hstep,
      htransition⟩ : ∃ made answers last view stepped transition,
        (make busy.engine {} 4).1 = .ok made ∧
        made.run busy.engine [.step 7, .reset (some 3), .step 8, .reset (some 9), .step 2] =
          .ok (answers, last) ∧
        lastView answers = some view ∧ view.info.valid = [5, 150, 5] ∧
        last.step busy.engine 150 = .ok stepped ∧ stepped.answer = .ok transition :=
    ⟨_, _, _, _, _, _, rfl, rfl, rfl, rfl, rfl, rfl⟩
  obtain ⟨-, -, -, -, -, -, -, -, hshown⟩ := enforces_offers hmake hrun
  obtain ⟨hpasses, hmask⟩ := hshown view hview
  obtain ⟨hremapped, heffective⟩ :=
    (hpasses 150 stepped transition hstep htransition).2 (by simp [hvalid])
  refine ⟨made, answers, last, view, stepped, transition, hmake, hrun, hview, hstep, htransition,
    hremapped, heffective, (hmask 5 (by decide)).1 (by simp [hvalid]), ?_⟩
  simpa [hvalid] using mt (hmask 6 (by decide)).2

end Env
end BlindArena
