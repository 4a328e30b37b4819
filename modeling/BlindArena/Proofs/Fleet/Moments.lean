import BlindArena.Proofs.Env.Moments
import BlindArena.Proofs.Fleet.Closings

/-!
# What a fleet hands out

The views a fleet hands out are those of its environments. Where a step ends an episode, the last
view of the old episode is kept in the transition beside the first view of the new one, and each of
them is of its own moment: the one of the step, the other of the reset that follows it.
-/

namespace BlindArena
namespace Fleet

inductive Answer where
  | opened (answer : Except Failure (List View))
  | stepped (answer : Except Failure (List Transition))
  | closed

def Answer.views : Answer → List View
  | opened (.ok views) => views
  | stepped (.ok transitions) => transitions.flatMap fun t => t.terminal.toList ++ [t.view]
  | _ => []

structure Entry (σ : Type) where
  before : Fleet σ
  call : Call
  answer : Answer
  after : Fleet σ

variable {σ : Type} (E : Engine σ)

def Call.answer (fleet : Fleet σ) : Call → Except Interruption (Answer × Fleet σ)
  | reset => .ok (.opened (fleet.reset E).answer, (fleet.reset E).state)
  | step actions => (fleet.step E actions).map fun reply => (.stepped reply.answer, reply.state)
  | close => .ok (.closed, fleet.close)

def trail (fleet : Fleet σ) : List Call → Except Interruption (List (Entry σ))
  | [] => .ok []
  | call :: calls =>
    match call.answer E fleet with
    | .error i => .error i
    | .ok (answer, next) => (next.trail calls).map (⟨fleet, call, answer, next⟩ :: ·)

variable {E} {fleet : Fleet σ}

theorem trail_cons_ok_elim {call : Call} {calls : List Call} {entries : List (Entry σ)}
    (h : fleet.trail E (call :: calls) = .ok entries) :
    ∃ answer next later, call.answer E fleet = .ok (answer, next) ∧
      next.trail E calls = .ok later ∧ entries = ⟨fleet, call, answer, next⟩ :: later := by
  cases hcall : call.answer E fleet with
  | error i => simp [trail, hcall] at h
  | ok answered =>
    obtain ⟨answer, next⟩ := answered
    cases hlater : next.trail E calls with
    | error i => simp [trail, hcall, hlater, Except.map] at h
    | ok later =>
      simp only [trail, hcall, hlater, Except.map, Except.ok.injEq] at h
      exact ⟨answer, next, later, rfl, hlater, h.symm⟩

/-- A transition that is handed out for one of the environments, which made a step and was reset if
that ended its episode. -/
structure Told (E : Engine σ) (stride : UInt64) (before : Env σ) (action : Index) (after : Env σ)
    (transition : Transition) : Prop where
  /-- Its last view is of the moment at which the step ends. -/
  last : ∃ stepped made, before.step E action = .ok stepped ∧ stepped.answer = .ok made ∧
    transition.last = made.view ∧ transition.ending = made.ending ∧
    transition.reward = made.reward ∧ transition.last.Shows stepped.state.tracker ∧
    Env.Observes before.tracker transition.last.observation stepped.state.tracker
  view : transition.view.Shows after.tracker
  terminal : transition.terminal.isSome = transition.terminated
  renewed : transition.terminated = true → transition.view.Opens ∧
    ∃ stepped, before.step E action = .ok stepped ∧
      let renewed := stepped.state.reset E (some (before.seed + stride))
      renewed.answer = .ok transition.view ∧ after = renewed.state

theorem told_of_advance {stride : UInt64} {env : Env σ} {action : Index}
    {reply : Reply (Env σ) (Except Failure Transition)} {transition : Transition}
    (h : advance E stride env action = .ok reply) (ha : reply.answer = .ok transition) :
    Told E stride env action reply.state transition := by
  obtain ⟨stepped, made, hstep, hmade, hrest⟩ := advance_ok_elim h ha
  obtain ⟨hshows, hobserves⟩ := Env.shows_of_step hstep hmade
  have hlast := Env.last_of_step hstep hmade
  cases hends : made.terminated with
  | true =>
    rw [hends, if_pos rfl] at hrest
    obtain ⟨opening, hopening, rfl, hstate⟩ := hrest
    rw [(Env.kept_of_step hstep).2] at hopening hstate
    obtain ⟨hfresh, hopens⟩ := Env.shows_of_reset hopening
    exact {
      last := ⟨stepped, made, hstep, hmade, rfl, rfl, rfl, hshows, hobserves⟩
      view := hstate ▸ hfresh
      terminal := hends.symm
      renewed := fun _ => ⟨hopens, stepped, hstep, hopening, hstate⟩ }
  | false =>
    rw [hends, if_neg (by simp)] at hrest
    obtain ⟨rfl, hstate⟩ := hrest
    exact {
      last := ⟨stepped, transition, hstep, hmade, hlast, rfl, rfl, hlast ▸ hshows,
        hlast ▸ hobserves⟩
      view := hstate ▸ hshows
      terminal := by rw [Env.terminal_of_step hstep hmade, hends]; rfl
      renewed := by simp [hends] }

theorem advances_of_step {actions : List Index}
    {reply : Reply (Fleet σ) (Except Failure (List Transition))} {transitions : List Transition}
    (h : fleet.step E actions = .ok reply) (ha : reply.answer = .ok transitions) :
    transitions.length = fleet.size ∧
      ∀ (place : Nat) (transition : Transition), transitions[place]? = some transition →
        ∃ env action advanced, fleet.envs[place]? = some env ∧ actions[place]? = some action ∧
          reply.state.envs[place]? = some advanced.state ∧
          advance E fleet.stride env action = .ok advanced ∧
          advanced.answer = .ok transition := by
  unfold step at h
  split at h
  · rename_i hlength
    split at h
    · cases h
    · rename_i replies hreplies
      cases h
      rw [gather_eq_ok_iff] at hreplies
      rw [collect_eq_ok_iff] at ha
      have hsize : replies.length = fleet.size := by
        simpa [hlength, size] using (congrArg List.length hreplies).symm
      have hcount : replies.length = transitions.length := by simpa using congrArg List.length ha
      refine ⟨hcount.symm.trans hsize, fun place transition htransition => ?_⟩
      obtain ⟨advanced, hadvanced, hanswer⟩ := exists_getElem?_of_map_eq ha.symm htransition
      have hmade : (List.zipWith (advance E fleet.stride) fleet.envs actions)[place]? =
          some (.ok advanced) := by
        rw [hreplies, List.getElem?_map, hadvanced]
        rfl
      obtain ⟨env, action, henv, haction, hadvance⟩ := List.getElem?_zipWith_eq_some.1 hmade
      exact ⟨env, action, advanced, henv, haction, by simp [hadvanced], hadvance, hanswer.symm⟩
  · cases h
    cases ha

theorem views_of_reset {views : List View} (h : (fleet.reset E).answer = .ok views) :
    List.Forall₂ (fun (env : Env σ) (view : View) => view.Shows env.tracker ∧ view.Opens)
      (fleet.reset E).state.envs views := by
  have hanswers := collect_eq_ok_iff.1 h
  clear h
  simp only [reset, List.map_map] at hanswers ⊢
  generalize fleet.envs = envs at hanswers ⊢
  induction envs generalizing views with
  | nil =>
    obtain rfl : views = [] := by simpa using hanswers.symm
    exact .nil
  | cons env envs ih =>
    cases views with
    | nil => simp at hanswers
    | cons view views =>
      simp only [List.map_cons, Function.comp_apply, List.cons.injEq] at hanswers
      exact .cons (Env.shows_of_reset hanswers.1) (ih hanswers.2)

/-- Whatever is handed out by a call is of the moment at which it was made. -/
inductive Entry.Timely (E : Engine σ) (x : Entry σ) : Prop
  | opened {views : List View} (hanswer : x.answer = .opened (.ok views))
      (hviews : List.Forall₂ (fun (env : Env σ) (view : View) =>
        view.Shows env.tracker ∧ view.Opens) x.after.envs views)
  | stepped {actions : List Index} {transitions : List Transition} (hcall : x.call = .step actions)
      (hanswer : x.answer = .stepped (.ok transitions))
      (hlength : transitions.length = x.before.size)
      (htold : ∀ (place : Nat) (transition : Transition), transitions[place]? = some transition →
        ∃ before action after, x.before.envs[place]? = some before ∧
          actions[place]? = some action ∧ x.after.envs[place]? = some after ∧
          Told E x.before.stride before action after transition)
  | silent (hnone : x.answer.views = [])

theorem timely_of_answer {call : Call} {answer : Answer} {next : Fleet σ}
    (h : call.answer E fleet = .ok (answer, next)) :
    Entry.Timely E ⟨fleet, call, answer, next⟩ := by
  cases call with
  | reset =>
    cases h
    cases hviews : (fleet.reset E).answer with
    | error failure => exact .silent rfl
    | ok views => exact .opened rfl (views_of_reset hviews)
  | step actions =>
    cases hstep : fleet.step E actions with
    | error i => simp [Call.answer, hstep, Except.map] at h
    | ok reply =>
      simp only [Call.answer, hstep, Except.map, Except.ok.injEq, Prod.mk.injEq] at h
      obtain ⟨rfl, rfl⟩ := h
      cases hmade : reply.answer with
      | error failure => exact .silent rfl
      | ok transitions =>
        obtain ⟨hlength, hplaces⟩ := advances_of_step hstep hmade
        refine .stepped rfl rfl hlength fun place transition htransition => ?_
        obtain ⟨env, action, advanced, henv, haction, hafter, hadvance, hanswer⟩ :=
          hplaces place transition htransition
        exact ⟨env, action, advanced.state, henv, haction, hafter,
          told_of_advance hadvance hanswer⟩
  | close =>
    cases h
    exact .silent rfl

/-- In every row of calls, to an environment or to a fleet, observation and diagnostics that are
handed out together are of one moment. -/
theorem views_of_one_moment (E : Engine σ) :
    (∀ (env : Env σ) calls entries, env.trail E calls = .ok entries →
      ∀ x ∈ entries, x.Timely) ∧
    ∀ (fleet : Fleet σ) calls entries, fleet.trail E calls = .ok entries →
      ∀ x ∈ entries, x.Timely E := by
  refine ⟨fun env calls entries h => Env.timely_of_trail h, fun fleet calls => ?_⟩
  induction calls generalizing fleet with
  | nil =>
    rintro entries ⟨⟩
    simp
  | cons call calls ih =>
    intro entries h
    obtain ⟨answer, next, later, hcall, hlater, rfl⟩ := trail_cons_ok_elim h
    exact List.forall_mem_cons.2 ⟨timely_of_answer hcall, ih next later hlater⟩

def cleared : Script where
  frames := [{ report := some (.input .blindSelect [⟨1, "select"⟩, ⟨2, "skip"⟩]) },
    { report := some (.input .playing [⟨0, "play"⟩]), figures := some ⟨10, 4⟩ },
    { report := some (.progressed (some .roundEnd)), figures := some ⟨310, 9⟩ }]

/-- An episode of an environment by itself and the same at two places of a fleet, where the second
step ends it and a new one begins. -/
theorem views_of_one_moment_of_cleared :
    ∃ env fleet entries rows, ∃ x : Env.Entry Nat, ∃ y : Entry Nat, ∃ first second : Transition,
      (Env.make cleared.engine {} 3).1 = .ok env ∧
      env.trail cleared.engine [.reset none, .step 1, .step 7] = .ok entries ∧
      entries[2]? = some x ∧ x.Timely ∧
      (make cleared.engine 2 (Config.seeded {} 3) 0).1 = .ok fleet ∧
      fleet.trail cleared.engine [.reset, .step [1, 1], .step [7, 0]] = .ok rows ∧
      rows[2]? = some y ∧ y.answer = .stepped (.ok [first, second]) ∧
      first.last.info.score = 300 ∧ first.last.info.remapped = true ∧
      first.last.observation.gameInfo.score = Float32.ofInt 300 ∧
      first.terminal.isSome = true ∧ first.view.Opens := by
  obtain ⟨env, fleet, entries, rows, x, y, first, second, hmake, htrail, hx, hmade, hrows, hy,
      hcall, hanswer, hscore, hremapped, hends⟩ :
      ∃ env fleet entries rows, ∃ x : Env.Entry Nat, ∃ y : Entry Nat, ∃ first second : Transition,
        (Env.make cleared.engine {} 3).1 = .ok env ∧
        env.trail cleared.engine [.reset none, .step 1, .step 7] = .ok entries ∧
        entries[2]? = some x ∧
        (make cleared.engine 2 (Config.seeded {} 3) 0).1 = .ok fleet ∧
        fleet.trail cleared.engine [.reset, .step [1, 1], .step [7, 0]] = .ok rows ∧
        rows[2]? = some y ∧ y.call = .step [7, 0] ∧
        y.answer = .stepped (.ok [first, second]) ∧
        first.last.info.score = 300 ∧ first.last.info.remapped = true ∧ first.terminated = true :=
    ⟨_, _, _, _, _, _, _, _, rfl, rfl, rfl, rfl, rfl, rfl, rfl, rfl, rfl, rfl, rfl⟩
  obtain ⟨hsingle, htogether⟩ := views_of_one_moment cleared.engine
  have htimely := hsingle env _ entries htrail x (List.mem_of_getElem? hx)
  cases htogether fleet _ rows hrows y (List.mem_of_getElem? hy) with
  | opened hopened =>
    rw [hopened] at hanswer
    cases hanswer
  | stepped hstepped hreturned hlength htold =>
    rw [hreturned] at hanswer
    cases hanswer
    obtain ⟨before, action, after, -, -, -, hfirst⟩ := htold 0 first rfl
    obtain ⟨stepped, made, -, -, -, -, -, hshows, -⟩ := hfirst.last
    refine ⟨env, fleet, entries, rows, x, y, first, second, hmake, htrail, hx, htimely, hmade,
      hrows, hy, hreturned, hscore, hremapped, ?_, hfirst.terminal.trans hends,
      (hfirst.renewed hends).1⟩
    have hfigures := hshows.gameInfo
    rw [hscore] at hfigures
    exact (List.cons.inj hfigures).1
  | silent hnone =>
    rw [hanswer] at hnone
    simp [Answer.views] at hnone

end Fleet
end BlindArena
