import BlindArena.Env.Lemmas

/-!
# Fleets

Several independent environments stepped together, at least one. The environment at place `i` starts
from the base seed plus `i`, wrapping around. One whose episode ends is reset at once, its seed
moved on by the size of the fleet. Each environment answers for itself; the answer of the fleet is
the list of theirs, or a failure among them. An overflow in one of them interrupts the call.

Here a call reaches every environment, and the failure that is answered is the first. A call that
fails can also go in other ways (`Env/Parallel`); one that succeeds cannot.
-/

namespace BlindArena

structure Fleet (σ : Type) where
  envs : List (Env σ)
  envs_ne_nil : envs ≠ []

/-- All the answers, or the first failure. -/
def collect {ε α : Type} : List (Except ε α) → Except ε (List α)
  | [] => .ok []
  | .error failure :: _ => .error failure
  | .ok a :: rest => (collect rest).map (a :: ·)

/-- Nothing failed. -/
theorem collect_eq_ok_iff {ε α : Type} {answers : List (Except ε α)} {values : List α} :
    collect answers = .ok values ↔ answers = values.map .ok := by
  induction answers generalizing values with
  | nil => cases values <;> simp [collect]
  | cons answer rest ih =>
    cases answer with
    | error failure => cases values <;> simp [collect]
    | ok a =>
      cases hrest : collect rest with
      | error failure =>
        have (vs : List α) : rest ≠ vs.map .ok := fun h => by simp [ih.2 h] at hrest
        cases values <;> simp [collect, hrest, Except.map, this]
      | ok vs =>
        have (ws : List α) : rest = ws.map .ok ↔ vs = ws := by rw [← ih, hrest, Except.ok.injEq]
        cases values <;> simp [collect, hrest, Except.map, this]

theorem error_mem_of_collect {ε α : Type} {answers : List (Except ε α)} {failure : ε}
    (h : collect answers = .error failure) : .error failure ∈ answers := by
  induction answers with
  | nil => cases h
  | cons answer rest ih =>
    cases answer with
    | error first =>
      cases h
      exact List.mem_cons_self
    | ok a =>
      cases hrest : collect rest with
      | error later =>
        simp only [collect, hrest, Except.map, Except.error.injEq] at h
        exact List.mem_cons_of_mem _ (ih (h ▸ hrest))
      | ok values => simp [collect, hrest, Except.map] at h

theorem exists_getElem?_of_map_eq {β γ δ : Type} {f : β → δ} {g : γ → δ} {xs : List β}
    {ys : List γ} (h : xs.map f = ys.map g) {i : Nat} {x : β} (hx : xs[i]? = some x) :
    ∃ y, ys[i]? = some y ∧ f x = g y := by
  have hi : (xs.map f)[i]? = (ys.map g)[i]? := by rw [h]
  rw [List.getElem?_map, List.getElem?_map, hx] at hi
  obtain ⟨y, hy, heq⟩ := Option.map_eq_some_iff.1 hi.symm
  exact ⟨y, hy, heq.symm⟩

/-- What a call writes, interrupted or not. -/
def written {σ α : Type} : Except Interruption (Reply σ α) → Transcript
  | .error i => i.transcript
  | .ok reply => reply.transcript

/-- All the replies, or the first interruption. What the calls write is written in either case. -/
def gather {σ α : Type} (calls : List (Except Interruption (Reply σ α))) :
    Except Interruption (List (Reply σ α)) :=
  match collect calls with
  | .error i => .error ⟨i.cause, calls.flatMap written⟩
  | .ok replies => .ok replies

/-- Nothing was interrupted. -/
theorem gather_eq_ok_iff {σ α : Type} {calls : List (Except Interruption (Reply σ α))}
    {replies : List (Reply σ α)} : gather calls = .ok replies ↔ calls = replies.map .ok := by
  rw [← collect_eq_ok_iff]
  cases h : collect calls <;> simp [gather, h]

namespace Fleet
variable {σ : Type} (E : Engine σ)

def size (fleet : Fleet σ) : Nat := fleet.envs.length

theorem size_pos (fleet : Fleet σ) : 0 < fleet.size := List.length_pos_iff.2 fleet.envs_ne_nil

/-- How far a seed moves from one episode of an environment to the next. -/
def stride (fleet : Fleet σ) : UInt64 := UInt64.ofNat fleet.size

theorem seed_succ (seed : UInt64) (count : Nat) :
    seed + UInt64.ofNat (count + 1) = seed + 1 + UInt64.ofNat count := by
  rw [UInt64.ofNat_add, UInt64.add_comm (UInt64.ofNat count), UInt64.add_assoc]
  rfl

/-- Environments with seeds in a row, up to the first that fails. -/
def makeFrom (config : Config) (seed : UInt64) :
    Nat → Except Failure (List (Env σ)) × Transcript
  | 0 => (.ok [], [])
  | count + 1 =>
    match Env.make E (config.seeded seed) 0 with
    | (.error failure, said) => (.error failure, said)
    | (.ok env, said) =>
      let others := makeFrom config (seed + 1) count
      (others.1.map (env :: ·), said ++ others.2)

/-- A fleet of `n` environments. The word draws the base seed if none is set. -/
def make (n : Nat) (config : Config) (word : UInt64) : Except Failure (Fleet σ) × Transcript :=
  match makeFrom E config (config.seedOr word) n with
  | (.error failure, said) => (.error failure, said)
  | (.ok envs, said) =>
    if h : envs = [] then (.error .noEnvironments, said) else (.ok ⟨envs, h⟩, said)

section make
variable {E} {config : Config} {n : Nat} {seed word : UInt64} {envs : List (Env σ)}
  {fleet : Fleet σ}

theorem makeFrom_succ_ok_elim (h : (makeFrom E config seed (n + 1)).1 = .ok envs) :
    ∃ env others, (Env.make E (config.seeded seed) 0).1 = .ok env ∧
      (makeFrom E config (seed + 1) n).1 = .ok others ∧ envs = env :: others := by
  simp only [makeFrom] at h
  split at h
  · cases h
  · rename_i env said hmade
    cases hothers : (makeFrom E config (seed + 1) n).1 with
    | error failure => simp [hothers, Except.map] at h
    | ok others =>
      simp only [hothers, Except.map, Except.ok.injEq] at h
      exact ⟨env, others, by rw [hmade], rfl, h.symm⟩

theorem makeFrom_of_make (h : (make E n config word).1 = .ok fleet) :
    (makeFrom E config (config.seedOr word) n).1 = .ok fleet.envs := by
  unfold make at h
  split at h
  · cases h
  · rename_i envs said hmade
    split at h
    · cases h
    · cases h
      rw [hmade]

theorem budget_of_makeFrom (h : (makeFrom E config seed n).1 = .ok envs) :
    ∀ env ∈ envs, env.config.budget = config.budget := by
  induction n generalizing seed envs with
  | zero =>
    cases h
    simp
  | succ n ih =>
    obtain ⟨first, others, hfirst, hothers, rfl⟩ := makeFrom_succ_ok_elim h
    rw [List.forall_mem_cons, Env.config_of_make hfirst]
    exact ⟨rfl, ih hothers⟩

theorem budget_of_make (h : (make E n config word).1 = .ok fleet) :
    ∀ env ∈ fleet.envs, env.config.budget = config.budget :=
  budget_of_makeFrom (makeFrom_of_make h)

/-- Each environment is made as one on its own, from its place in the row of seeds. -/
theorem makeFrom_ok_elim (h : (makeFrom E config seed n).1 = .ok envs) :
    envs.length = n ∧ ∀ (place : Nat) (env : Env σ), envs[place]? = some env →
      (Env.make E (config.seeded (seed + UInt64.ofNat place)) 0).1 = .ok env := by
  induction n generalizing seed envs with
  | zero =>
    cases h
    exact ⟨rfl, by simp⟩
  | succ n ih =>
    obtain ⟨first, others, hfirst, hothers, rfl⟩ := makeFrom_succ_ok_elim h
    obtain ⟨hlength, hmade⟩ := ih hothers
    refine ⟨by simp [hlength], fun place env hplace => ?_⟩
    cases place with
    | zero =>
      obtain rfl : first = env := by simpa using hplace
      simpa using hfirst
    | succ place =>
      rw [seed_succ]
      exact hmade place env (by simpa using hplace)

theorem make_ok_elim {base : UInt64} (h : (make E n (config.seeded base) word).1 = .ok fleet) :
    fleet.size = n ∧ ∀ (place : Nat) (env : Env σ), fleet.envs[place]? = some env →
      (Env.make E (config.seeded (base + UInt64.ofNat place)) 0).1 = .ok env := by
  have hfrom : (makeFrom E (config.seeded base) base n).1 = .ok fleet.envs := makeFrom_of_make h
  have helim := makeFrom_ok_elim hfrom
  exact helim

end make

/-- One step of one environment, which is reset at once if its episode ends. A reset that fails
loses the transition. -/
def advance (stride : UInt64) (env : Env σ) (action : Index) :
    Except Interruption (Reply (Env σ) (Except Failure Transition)) :=
  (env.step E action).map fun reply =>
    match reply.answer with
    | .error _ => reply
    | .ok transition =>
      if transition.terminated then
        let renewed := reply.state.reset E (some (reply.state.seed + stride))
        ⟨renewed.answer.map transition.renewed, renewed.state,
          reply.transcript ++ renewed.transcript⟩
      else reply

variable {E} in
/-- A step that succeeds, with the reset that follows if it ends the episode. -/
theorem advance_ok_elim {stride : UInt64} {env : Env σ} {action : Index}
    {reply : Reply (Env σ) (Except Failure Transition)} {transition : Transition}
    (h : advance E stride env action = .ok reply) (ha : reply.answer = .ok transition) :
    ∃ stepped made, env.step E action = .ok stepped ∧ stepped.answer = .ok made ∧
      if made.terminated then
        ∃ opening, let renewed := stepped.state.reset E (some (stepped.state.seed + stride))
          renewed.answer = .ok opening ∧ transition = made.renewed opening ∧
          reply.state = renewed.state
      else transition = made ∧ reply.state = stepped.state := by
  unfold advance at h
  cases hstep : env.step E action with
  | error i => simp [hstep, Except.map] at h
  | ok stepped =>
    simp only [hstep, Except.map, Except.ok.injEq] at h
    subst h
    cases hmade : stepped.answer with
    | error failure => simp [hmade] at ha
    | ok made =>
      refine ⟨stepped, made, rfl, hmade, ?_⟩
      cases hends : made.terminated with
      | true =>
        simp only [hmade, hends, if_true] at ha ⊢
        cases hopening : (stepped.state.reset E (some (stepped.state.seed + stride))).answer with
        | error failure => simp [hopening] at ha
        | ok opening =>
          simp only [hopening, Except.ok.injEq] at ha
          exact ⟨opening, rfl, ha.symm, trivial⟩
      | false => simpa [hmade, hends, eq_comm] using ha

def transcripts {α : Type} (replies : List (Reply (Env σ) α)) : Transcript :=
  replies.flatMap (·.transcript)

def reset (fleet : Fleet σ) : Reply (Fleet σ) (Except Failure (List View)) :=
  let replies := fleet.envs.map fun env => env.reset E none
  ⟨collect (replies.map (·.answer)),
    ⟨replies.map (·.state), by simpa [replies] using fleet.envs_ne_nil⟩, transcripts replies⟩

theorem size_reset (fleet : Fleet σ) : (fleet.reset E).state.size = fleet.size := by
  simp [reset, size]

theorem length_of_reset {fleet : Fleet σ} {views : List View}
    (h : (fleet.reset E).answer = .ok views) : views.length = fleet.size := by
  simpa [size] using (congrArg List.length (collect_eq_ok_iff.1 h)).symm

/-- One action for each environment, in order. -/
def step (fleet : Fleet σ) (actions : List Index) :
    Except Interruption (Reply (Fleet σ) (Except Failure (List Transition))) :=
  if hlength : actions.length = fleet.size then
    match h : gather (List.zipWith (advance E fleet.stride) fleet.envs actions) with
    | .error i => .error i
    | .ok replies =>
      have : replies.length = fleet.size := by
        simpa [hlength, size] using (congrArg List.length (gather_eq_ok_iff.1 h)).symm
      .ok ⟨collect (replies.map (·.answer)),
        ⟨replies.map (·.state), by
          have := fleet.size_pos
          rw [← List.length_pos_iff, List.length_map]
          omega⟩,
        transcripts replies⟩
  else .ok ⟨.error (.actionCount fleet.size actions.length), fleet, []⟩

def close (fleet : Fleet σ) : Fleet σ :=
  ⟨fleet.envs.map Env.close, by simpa using fleet.envs_ne_nil⟩

end Fleet

end BlindArena
