import BlindArena.Proofs.Observation.Marks
import BlindArena.Proofs.Sandbox.Environment

/-!
# The sandbox's choices

The rules stand in the sandbox twice: in what an action does and in the list of what is offered.
The two agree. An action that is not offered leaves everything as it is, the generator included, and
one that is offered is taken up and changes something, but for a discard without a picked card. Only
an open pack is left by every action, and a run that is over by none. The list is strictly
increasing and within the action space, so the mask of a view says the same as its list.
-/

namespace BlindArena

namespace Sandbox
variable {s : Sandbox}

/-! ## What is offered -/

theorem mem_toggles {all rest : List Card} {place a : Nat} :
    a ∈ (toggles all place rest).map (·.index) ↔
      ∃ k card, rest[k]? = some card ∧ mayToggle all card = true ∧ a = 2 + (place + k) := by
  induction rest generalizing place with
  | nil => simp [toggles]
  | cons card rest ih =>
    have hlater : (∃ k other, rest[k]? = some other ∧ mayToggle all other = true ∧
        a = 2 + (place + 1 + k)) ↔ ∃ k other, (card :: rest)[k + 1]? = some other ∧
          mayToggle all other = true ∧ a = 2 + (place + (k + 1)) := by
      simp only [List.getElem?_cons_succ, Nat.add_right_comm place 1, Nat.add_assoc]
    rw [← Nat.or_exists_add_one, ← hlater, ← ih]
    by_cases hmay : mayToggle all card <;> simp [toggles, hmay]

theorem pairwise_toggles (all : List Card) (place : Nat) (rest : List Card) :
    ((toggles all place rest).map (·.index)).Pairwise (· < ·) := by
  induction rest generalizing place with
  | nil => exact List.Pairwise.nil
  | cons card rest ih =>
    simp only [toggles]
    split
    · refine List.pairwise_cons.2 ⟨fun a ha => ?_, ih (place + 1)⟩
      obtain ⟨k, -, -, -, rfl⟩ := mem_toggles.1 ha
      exact Nat.add_lt_add_left (by omega) 2
    · exact ih (place + 1)

theorem decision_of_open (hopen : s.outcome = none) (hphase : s.phase ≠ .shopPackSelection) :
    s.decision = .input s.phase s.choices := by
  unfold decision
  rw [hopen]
  cases hcase : s.phase with
  | shopPackSelection => exact absurd hcase hphase
  | _ => rfl

theorem legal_decision (hopen : s.outcome = none) :
    s.decision.legal = s.choices.map (·.index) := by
  by_cases hphase : s.phase = .shopPackSelection
  · simp [decision, choices, hopen, hphase]
  · rw [decision_of_open hopen hphase, Report.legal_input]

/-- In a full hand every place holds a card; it is offered unless it is held back because enough are
picked. -/
theorem mem_toggles_hand {cards : List Card} (hlength : cards.length = handSize) {a : Nat} :
    a ∈ (toggles cards 0 cards).map (·.index) ↔ (2 ≤ a ∧ a < 2 + handSize) ∧
      ∀ place card, a = 2 + place → cards[place]? = some card → mayToggle cards card = true := by
  rw [mem_toggles]
  constructor
  · rintro ⟨place, card, hcard, hmay, rfl⟩
    have hplace := (List.getElem?_eq_some_iff.1 hcard).1
    refine ⟨by omega, fun place' card' hindex hcard' => ?_⟩
    obtain rfl : place = place' := by omega
    rw [hcard] at hcard'
    cases hcard'
    exact hmay
  · rintro ⟨hrange, hmay⟩
    obtain ⟨place, rfl⟩ := Nat.exists_eq_add_of_le hrange.1
    have hplace : place < cards.length := by omega
    have hcard := List.getElem?_eq_getElem hplace
    exact ⟨place, _, hcard, hmay place _ rfl hcard, by omega⟩

/-- What the rules take up is offered, but for a card that is held back. -/
theorem mem_choices (h : s.Sound) (hphase : s.phase ≠ .shopPackSelection) {a : Nat} :
    a ∈ s.choices.map (·.index) ↔ s.Means a ∧ ∀ place card, s.phase = .playing →
      a = 2 + place → s.cards[place]? = some card → mayToggle s.cards card = true := by
  unfold choices Means
  cases hcase : s.phase with
  | blindSelect => by_cases hblind : s.blind = .boss <;> simp [hblind]
  | playing =>
    obtain ⟨-, -, hlength, -⟩ := h.playing hcase
    have htoggles := mem_toggles_hand hlength (a := a)
    have hdiscard : a ∈ (if 0 < s.discards then [(⟨1, "Discard selected"⟩ : Choice)] else []).map
        (·.index) ↔ a = 1 ∧ 0 < s.discards := by
      by_cases hleft : 0 < s.discards <;> simp [hleft]
    simp only [List.cons_append, List.map_cons, List.map_append, List.mem_cons, List.mem_append,
      hdiscard, htoggles, forall_const]
    -- only indices from two on are cards, and only these can be held back
    by_cases hlow : a < 2
    · have hnone : ∀ place, a ≠ 2 + place := fun place => by omega
      simp [hnone]
    · have hnone : a ≠ 0 ∧ a ≠ 1 := by omega
      simp [hnone]
  | roundEnd => simp
  | shop =>
    by_cases hreroll : rerollCost ≤ s.money <;> by_cases hpack : packCost ≤ s.money <;>
      simp [hreroll, hpack]
  | shopPackSelection => exact absurd hcase hphase
  | gameOver => simp

theorem pairwise_choices (s : Sandbox) : (s.choices.map (·.index)).Pairwise (· < ·) := by
  unfold choices
  cases s.phase with
  | blindSelect => by_cases hblind : s.blind = .boss <;> simp [hblind]
  | playing =>
    have htoggles := pairwise_toggles s.cards 0 s.cards
    have hlow : ∀ a ∈ (toggles s.cards 0 s.cards).map (·.index), 2 ≤ a := by
      intro a ha
      obtain ⟨place, -, -, -, rfl⟩ := mem_toggles.1 ha
      exact Nat.le_add_right 2 _
    by_cases hleft : 0 < s.discards
    · simp only [hleft, if_true, List.cons_append, List.nil_append, List.map_cons]
      refine List.pairwise_cons.2 ⟨?_, List.pairwise_cons.2 ⟨hlow, htoggles⟩⟩
      exact List.forall_mem_cons.2 ⟨Nat.one_pos, fun a ha => Nat.two_pos.trans_le (hlow a ha)⟩
    · simp only [hleft, if_false, List.cons_append, List.nil_append, List.map_cons]
      exact List.pairwise_cons.2 ⟨fun a ha => Nat.two_pos.trans_le (hlow a ha), htoggles⟩
  | roundEnd => simp
  | shop =>
    by_cases hreroll : rerollCost ≤ s.money <;> by_cases hpack : packCost ≤ s.money <;>
      simp [hreroll, hpack]
  | shopPackSelection => simp
  | gameOver => simp

theorem lt_of_means (hphase : s.phase ≠ .shopPackSelection) {a : Index} (h : s.Means a) :
    a < actionSpace := by
  unfold Means at h
  cases hcase : s.phase with
  | blindSelect => rw [hcase] at h; rcases h with rfl | ⟨rfl, -⟩ <;> decide
  | playing =>
    rw [hcase] at h
    rcases h with rfl | ⟨rfl, -⟩ | ⟨-, hlt⟩
    · decide
    · decide
    · exact hlt.trans (by decide)
  | roundEnd => rw [hcase] at h; subst h; decide
  | shop => rw [hcase] at h; rcases h with rfl | ⟨rfl, -⟩ | ⟨rfl, -⟩ <;> decide
  | shopPackSelection => exact absurd hcase hphase
  | gameOver => rw [hcase] at h; rcases h with rfl | rfl <;> decide

/-! ## What an action changes -/

theorem mem_choices_of_means (h : s.Sound) (hphase : s.phase ≠ .shopPackSelection) {a : Index}
    (hmeans : s.Means a) (hcard : s.phase = .playing → a < 2) : a ∈ s.choices.map (·.index) := by
  refine (mem_choices h hphase).2 ⟨hmeans, fun place card hplaying hindex _ => ?_⟩
  have hlow := hcard hplaying
  rw [hindex] at hlow
  exact absurd hlow (Nat.not_lt.2 (Nat.le_add_right 2 place))

theorem apply_of_not_mem (h : s.Sound) (hphase : s.phase ≠ .shopPackSelection) {a : Index}
    (ha : a ∉ s.choices.map (·.index)) : (s.apply a).value = s := by
  have hmoved := s.moved_apply a
  generalize s.apply a = spoken at hmoved ⊢
  cases hmoved with
  | @toggles hplaying place hplace =>
    have hheld : ∀ card, s.cards[place]? = some card → ¬ mayToggle s.cards card = true := by
      intro card hcard hmay
      refine ha ((mem_choices h hphase).2 ⟨by simp [Means, hplaying, hplace], ?_⟩)
      rintro place' card' - hindex hcard'
      obtain rfl := Nat.add_left_cancel hindex
      rw [hcard] at hcard'
      cases hcard'
      exact hmay
    show s.toggle place = s
    unfold toggle
    split
    · rename_i card hcard
      exact if_neg (hheld card hcard)
    · rfl
  | ignored hmeans => rfl
  | resolves hpack => exact absurd hpack hphase
  -- the other moves mean something and are no cards, so they are offered
  | _ => exact absurd (mem_choices_of_means h hphase (by simp [Means, *]) (by simp [*])) ha

theorem nextBlind_ne (s : Sandbox) : s.nextBlind ≠ s := by
  intro hsame
  have hblind : s.nextBlind.blind = s.blind := by rw [hsame]
  unfold nextBlind at hblind
  cases hcase : s.blind <;> simp [hcase] at hblind

theorem toggle_ne {place : Nat} {card : Card} (hcard : s.cards[place]? = some card)
    (hmay : mayToggle s.cards card = true) : s.toggle place ≠ s := by
  intro hsame
  have hplace := (List.getElem?_eq_some_iff.1 hcard).1
  have hcards : (s.toggle place).cards[place]? = some card := by rw [hsame, hcard]
  simp only [toggle, hcard, hmay, if_true, List.getElem?_set_self hplace,
    Option.some.injEq] at hcards
  have hpicked : (!card.picked) = card.picked := congrArg Card.picked hcards
  simp at hpicked

theorem discard_eq_self (hleft : 0 < s.discards) :
    s.discard = s ↔ pickedCount s.cards = 0 := by
  unfold discard
  split
  · rename_i hpicked
    refine iff_of_false (fun hsame => ?_) (Nat.ne_of_gt hpicked)
    have hdiscards : s.discards - 1 = s.discards := congrArg discards hsame
    omega
  · rename_i hnone
    exact iff_of_true rfl (Nat.eq_zero_of_not_pos hnone)

/-- What is offered changes something, but for a discard without a picked card. -/
theorem apply_eq_self_of_mem (h : s.Sound) (hopen : s.outcome = none)
    (hphase : s.phase ≠ .shopPackSelection) {a : Index} (ha : a ∈ s.choices.map (·.index)) :
    (s.apply a).value = s ↔ s.phase = .playing ∧ a = 1 ∧ pickedCount s.cards = 0 := by
  obtain ⟨hmeans, hmay⟩ := (mem_choices h hphase).1 ha
  have hmoved := s.moved_apply a
  generalize s.apply a = spoken at hmoved ⊢
  cases hmoved with
  | begins hselect =>
    refine iff_of_false (ne_of_apply_ne phase ?_) (by simp [hselect])
    simp [value_beginBlind, hselect]
  | skips hselect hblind => exact iff_of_false (nextBlind_ne s) (by simp [hselect])
  | plays hplaying =>
    obtain ⟨hhands, -, -, -⟩ := h.playing hplaying
    obtain ⟨phase, hplay, -⟩ := play_elim s
    refine iff_of_false (ne_of_apply_ne hands ?_) (by simp)
    rw [hplay]
    exact (Nat.sub_one_lt_of_lt hhands).ne
  | discards hplaying hleft => simp [discard_eq_self hleft, hplaying]
  | @toggles hplaying place hplace =>
    obtain ⟨-, -, hlength, -⟩ := h.playing hplaying
    have hcard := List.getElem?_eq_getElem (hplace.trans_eq hlength.symm)
    have hhigh : 2 + place ≠ 1 := by omega
    exact iff_of_false (toggle_ne hcard (hmay place _ hplaying rfl hcard)) (by simp [hhigh])
  | cashes hend =>
    exact iff_of_false (ne_of_apply_ne phase (by simp [cashOut, hend])) (by simp [hend])
  | leaves hshop => exact iff_of_false (nextBlind_ne s) (by simp [hshop])
  | rerolls hshop hmoney =>
    exact iff_of_false (ne_of_apply_ne money (by simp [rerollCost])) (by simp [hshop])
  | opens hshop hmoney =>
    exact iff_of_false (ne_of_apply_ne phase (by simp [hshop])) (by simp [hshop])
  | resolves hpack => exact absurd hpack hphase
  | again hend | exits hend =>
    exact iff_of_false (ne_of_apply_ne outcome (by simp [finish, hopen])) (by simp [hend])
  | ignored hnot => exact absurd hmeans hnot

theorem ne_output_ignored {a : Index} {first : String} {rest : List Output}
    (h : first.toList.head? ≠ some 'i') :
    Output.line first :: rest ≠ (s.ignored a).output := by
  rintro hsame
  obtain ⟨hline, -⟩ := List.cons_eq_cons.1 hsame
  have htext : (first ++ "\n").toList.head? = some 'i' := by
    have hsame := congrArg (·.text.toList.head?) hline
    simpa [Output.line] using hsame
  rw [String.toList_append, List.head?_append] at htext
  cases hfirst : first.toList.head? with
  | none => simp [hfirst] at htext
  | some c =>
    rw [hfirst, Option.some_or] at htext
    exact h (hfirst.trans htext)

theorem output_of_mem (h : s.Sound) (hphase : s.phase ≠ .shopPackSelection) {a : Index}
    (ha : a ∈ s.choices.map (·.index)) : (s.apply a).output ≠ (s.ignored a).output := by
  have hmeans := ((mem_choices h hphase).1 ha).1
  have hmoved := s.moved_apply a
  generalize s.apply a = spoken at hmoved ⊢
  cases hmoved with
  | begins hselect =>
    unfold beginBlind
    generalize deal handSize s.rng = dealt
    exact ne_output_ignored (by simp)
  | plays hplaying =>
    unfold play
    generalize redraw (pickFirst s.cards) s.rng = drawn
    dsimp only
    split
    · exact ne_output_ignored (by simp)
    · split
      · exact ne_output_ignored (by simp)
      · exact ne_output_ignored (by simp)
  | cashes hend => exact ne_output_ignored (by simp)
  | ignored hnot => exact absurd hmeans hnot
  | _ => simp [ignored]

/-! ## Runs that are over -/

theorem phase_apply_of_over (hopen : s.outcome = none) {a : Index}
    (hover : (s.apply a).value.outcome ≠ none) : (s.apply a).value.phase = .gameOver := by
  have hmoved := s.moved_apply a
  generalize s.apply a = spoken at hmoved hover ⊢
  cases hmoved with
  | again hphase => exact hphase
  | exits hphase => exact hphase
  | begins hphase =>
    rw [value_beginBlind] at hover
    exact absurd hopen hover
  | plays hphase =>
    obtain ⟨phase, hplay, -⟩ := play_elim s
    rw [hplay] at hover
    exact absurd hopen hover
  | skips hphase hblind =>
    rw [nextBlind_eq] at hover
    exact absurd hopen hover
  | leaves hphase =>
    rw [nextBlind_eq] at hover
    exact absurd hopen hover
  | discards hphase hleft =>
    obtain ⟨cards, rng, discards, hdiscard⟩ := discard_elim s
    rw [hdiscard] at hover
    exact absurd hopen hover
  | @toggles hphase place hplace =>
    obtain ⟨cards, htoggle⟩ := toggle_elim s place
    rw [htoggle] at hover
    exact absurd hopen hover
  | _ => exact absurd hopen hover

theorem act_of_over (hover : s.outcome ≠ none) (action : Option Index) :
    (s.act action).value = s := by
  unfold act
  split
  · rename_i hopen
    exact absurd hopen hover
  · rfl

theorem phase_act_of_over (h : s.outcome ≠ none → s.phase = .gameOver) (action : Option Index) :
    (s.act action).value.outcome ≠ none → (s.act action).value.phase = .gameOver := by
  unfold act
  split
  · rename_i hopen
    exact phase_apply_of_over hopen
  · exact h

theorem phase_run_of_over (h : s.outcome ≠ none → s.phase = .gameOver) (calls : List Call) :
    (s.run calls).outcome ≠ none → (s.run calls).phase = .gameOver := by
  induction calls generalizing s with
  | nil => exact h
  | cons call calls ih =>
    apply ih
    cases call with
    | configure deck stake => exact h
    | start => simp [Call.perform, engine, resetRun]
    | step action => exact phase_act_of_over h action

theorem Reached.phase_of_over (h : s.Reached) (hover : s.outcome ≠ none) : s.phase = .gameOver := by
  obtain ⟨seed, calls, rfl⟩ := h
  exact phase_run_of_over (by simp [fresh, resetRun]) calls hover

/-- Once a run is over, only deck and stake change until the next one starts. -/
theorem run_of_over (hover : s.outcome ≠ none) {calls : List Call} (hcalls : Call.start ∉ calls) :
    s.run calls = { s with deck := (s.run calls).deck, stake := (s.run calls).stake } := by
  induction calls generalizing s with
  | nil => rfl
  | cons call calls ih =>
    obtain ⟨hcall, hlater⟩ := not_or.1 (mt List.mem_cons.2 hcalls)
    cases call with
    | configure deck stake => exact ih (s := s.configure deck stake) hover hlater
    | start => exact absurd rfl hcall
    | step action =>
      have hsame : (Call.step action).perform s = s := act_of_over hover action
      simp only [run, List.foldl_cons, hsame]
      exact ih hover hlater

/-! ## Idle calls -/

/-- A probe, or an action that is not offered where a choice is waited for. -/
def Call.idle (s : Sandbox) : Call → Bool
  | step (some action) =>
    s.phase ≠ .shopPackSelection && !s.decision.legal.contains action
  | step none => true
  | _ => false

/-- Only the calls that are not idle when they are made. -/
def pruned (s : Sandbox) : List Call → List Call
  | [] => []
  | call :: calls =>
    let later := pruned (call.perform s) calls
    if call.idle s then later else call :: later

theorem perform_of_idle (h : s.Sound) {call : Call} (hidle : call.idle s = true) :
    call.perform s = s := by
  cases call with
  | configure deck stake => cases hidle
  | start => cases hidle
  | step action =>
    cases action with
    | none => rfl
    | some action =>
      simp only [Call.idle, Bool.and_eq_true, decide_eq_true_eq, Bool.not_eq_true',
        List.contains_eq_mem, decide_eq_false_iff_not] at hidle
      obtain ⟨hphase, haction⟩ := hidle
      cases hopen : s.outcome with
      | none =>
        rw [legal_decision hopen] at haction
        simp only [Call.perform, engine, act_of_open hopen]
        exact apply_of_not_mem h hphase haction
      | some outcome => exact act_of_over (by simp [hopen]) _

/-- The calls that are left still meet the states in which they were made. -/
theorem run_pruned (h : s.Sound) (calls : List Call) : s.run (s.pruned calls) = s.run calls := by
  induction calls generalizing s with
  | nil => rfl
  | cons call calls ih =>
    have hlater := ih (h.perform call)
    simp only [pruned]
    split
    · rename_i hidle
      rw [perform_of_idle h hidle] at hlater ⊢
      rw [hlater]
      simp only [run, List.foldl_cons, perform_of_idle h hidle]
    · exact hlater

/-! ## Views -/

theorem pairwise_legal (s : Sandbox) : s.decision.legal.Pairwise (· < ·) := by
  cases hopen : s.outcome with
  | none =>
    rw [legal_decision hopen]
    exact pairwise_choices s
  | some outcome => simp [decision, hopen]

theorem Sound.lt_of_legal (h : s.Sound) : ∀ a ∈ s.decision.legal, a < actionSpace := by
  intro a ha
  cases hopen : s.outcome with
  | none =>
    by_cases hphase : s.phase = .shopPackSelection
    · simp [decision, hopen, hphase] at ha
    · rw [legal_decision hopen, mem_choices h hphase] at ha
      exact lt_of_means hphase ha.1
  | some outcome => simp [decision, hopen] at ha

theorem Sound.indices_mask (h : s.Sound) :
    (Mask.ofIndices s.decision.legal).indices = s.decision.legal :=
  Mask.indices_ofIndices (pairwise_legal s) h.lt_of_legal

variable {env : Env Sandbox}

def Masked (answer : Env.Answer) : Prop :=
  ∀ view, answer.view? = some view → view.observation.available.indices = view.info.valid

theorem masked_of_perform (h : Steady env) {call : Env.Call} {answer : Env.Answer}
    {next : Env Sandbox} (hperform : call.perform engine env = .ok (answer, next)) :
    Masked answer := by
  cases call with
  | reset seed =>
    cases hperform
    rintro _ ⟨⟩
    have hlaunched := reached_launched (seed.getD env.seed) env.config.deck env.config.stake
    exact hlaunched.sound.indices_mask
  | step action =>
    obtain ⟨reply, hstep, rfl, rfl⟩ := Env.perform_step_ok_elim hperform
    intro view hview
    cases hanswer : reply.answer with
    | error failure => simp [hanswer, Env.Answer.view?] at hview
    | ok transition =>
      obtain ⟨session, report, turn, hsession, hreport, hturn, rfl, -⟩ :=
        Env.step_ok_elim hstep hanswer
      rw [hanswer] at hview
      cases hview
      cases hreport
      have hreached := (h.session session hsession).perform (.step (some
        (Resolution.resolve action env.tracker.legal).effective))
      show (Mask.ofIndices _).indices = turn.tracker.legal
      rw [Tracker.legal_of_turn hturn]
      exact hreached.sound.indices_mask
  | close =>
    cases hperform
    simp [Masked, Env.Answer.view?]

theorem masked_of_run (h : Steady env) {calls : List Env.Call} {answers : List Env.Answer}
    {last : Env Sandbox} (hrun : env.run engine calls = .ok (answers, last)) :
    ∀ answer ∈ answers, Masked answer := by
  refine (Env.invariant_of_run (P := fun past env => Steady env ∧ ∀ answer ∈ past, Masked answer)
    ?_ [] ⟨h, by simp⟩ hrun).2
  rintro past env call answer next ⟨hsteady, hpast⟩ hperform
  obtain ⟨answer', next', hperform', hnext⟩ := hsteady.perform call
  cases hperform.symm.trans hperform'
  refine ⟨hnext, fun other hother => ?_⟩
  rcases List.mem_append.1 hother with hother | hother
  · exact hpast other hother
  · obtain rfl := List.mem_singleton.1 hother
    exact masked_of_perform hsteady hperform

/-! ## Exactness -/

/-- Where a choice is waited for, what is offered is what changes something, but for a discard
without a picked card. -/
structure Exact (s : Sandbox) : Prop where
  waits : s.decision.status = .needsInput
  offers : s.decision.actions ≠ []
  increasing : s.decision.legal.Pairwise (· < ·)
  lt_actionSpace : ∀ a ∈ s.decision.legal, a < actionSpace
  refused : ∀ a ∉ s.decision.legal, (engine.step s (some a)).value.2 = s
  heeded : ∀ a ∈ s.decision.legal, (engine.step s (some a)).output ≠ (s.ignored a).output
  changed : ∀ a ∈ s.decision.legal, (engine.step s (some a)).value.2 = s ↔
    s.phase = .playing ∧ a = 1 ∧ pickedCount s.cards = 0

theorem choices_ne_nil (hphase : s.phase ≠ .shopPackSelection) : s.choices ≠ [] := by
  unfold choices
  cases hcase : s.phase with
  | shopPackSelection => exact absurd hcase hphase
  | _ => simp

theorem Sound.exact_of_open (h : s.Sound) (hopen : s.outcome = none)
    (hphase : s.phase ≠ .shopPackSelection) : s.Exact := by
  have hlegal := legal_decision hopen
  have hinput := decision_of_open hopen hphase
  have hstep : ∀ a, (engine.step s (some a)).value.2 = (s.apply a).value ∧
      (engine.step s (some a)).output = (s.apply a).output := by
    intro a
    simp only [engine, act_of_open hopen, and_self]
  exact {
    waits := by rw [hinput]; rfl
    offers := by rw [hinput]; exact choices_ne_nil hphase
    increasing := pairwise_legal s
    lt_actionSpace := h.lt_of_legal
    refused := fun a ha => by
      rw [(hstep a).1]
      exact apply_of_not_mem h hphase (hlegal ▸ ha)
    heeded := fun a ha => by
      rw [(hstep a).2]
      exact output_of_mem h hphase (hlegal ▸ ha)
    changed := fun a ha => by
      rw [(hstep a).1]
      exact apply_eq_self_of_mem h hopen hphase (hlegal ▸ ha) }

/-- However the sandbox was driven, its offer is exact, idle calls can be left out, and every view
of an environment over it says the same by its mask as by its list. -/
theorem legal_exact :
    (∀ s : Sandbox, s.Reached →
      (s.outcome = none → s.phase ≠ .shopPackSelection → s.Exact) ∧
      (s.outcome = none → s.phase = .shopPackSelection →
        s.decision = .progressed (some .shopPackSelection) ∧
          ∀ a, (engine.step s (some a)).value.2 = { s with phase := .shop }) ∧
      (∀ outcome, s.outcome = some outcome →
        s.phase = .gameOver ∧ s.decision = .ended (some .gameOver) outcome.restart ∧
          (∀ a, (engine.step s (some a)).value.2 = s) ∧
          ∀ calls, Call.start ∉ calls →
            s.run calls = { s with deck := (s.run calls).deck, stake := (s.run calls).stake }) ∧
      ∀ calls, s.run (s.pruned calls) = s.run calls) ∧
    ∀ (config : Config) (word : UInt64), ∃ made, (Env.make engine config word).1 = .ok made ∧
      ∀ calls : List Env.Call, ∃ answers last, made.run engine calls = .ok (answers, last) ∧
        ∀ answer ∈ answers, ∀ view, answer.view? = some view →
          view.observation.available.indices = view.info.valid := by
  refine ⟨fun s hreached => ⟨hreached.sound.exact_of_open, ?_, ?_, run_pruned hreached.sound⟩,
    fun config word => ?_⟩
  · intro hopen hphase
    refine ⟨by simp only [decision, hopen, hphase], fun a => ?_⟩
    simp only [engine, act_of_open hopen, apply, hphase]
  · intro outcome houtcome
    have hover : s.outcome ≠ none := by simp [houtcome]
    have hphase := hreached.phase_of_over hover
    exact ⟨hphase, by simp only [decision, houtcome, hphase], fun a => act_of_over hover (some a),
      fun calls => run_of_over hover⟩
  · obtain ⟨made, hmake, -, hsteady⟩ := steady_of_make config word
    refine ⟨made, hmake, fun calls => ?_⟩
    obtain ⟨answers, last, hrun, -⟩ :=
      Env.run_total (fun env call (h : Steady env) => h.perform call) hsteady calls
    exact ⟨answers, last, hrun, masked_of_run hsteady hrun⟩

/-- The calls that ask for these actions in turn. -/
def asking (actions : List Index) : List Call := actions.map fun action => .step (some action)

def unpacking : Sandbox := (fresh 4).run (asking [1, 9, 7, 2, 5, 8, 0, 8, 3, 9, 2, 4, 0, 0, 2])

def lost : Sandbox := (fresh 4).run (asking [1, 0, 0, 0, 0, 1])

/-- A fresh run, an open pack and a run that is over. -/
theorem legal_exact_of_lost :
    (engine.step (fresh 4) (some 7)).value.2 = fresh 4 ∧
      (engine.step (fresh 4) (some 2)).value.2 ≠ fresh 4 ∧
      (engine.step unpacking (some 150)).value.2 = { unpacking with phase := .shop } ∧
      lost.decision = .ended (some .gameOver) true ∧
      lost.run (asking [1, 4, 0]) = { lost with
        deck := (lost.run (asking [1, 4, 0])).deck
        stake := (lost.run (asking [1, 4, 0])).stake } := by
  obtain ⟨hopening, -⟩ := legal_exact.1 (fresh 4) ⟨4, [], rfl⟩
  obtain ⟨-, hunpacking, -⟩ := legal_exact.1 unpacking ⟨4, _, rfl⟩
  obtain ⟨-, -, hlost, -⟩ := legal_exact.1 lost ⟨4, _, rfl⟩
  have hexact := hopening (by rfl) (by decide)
  obtain ⟨-, hdecision, -, hrun⟩ := hlost ⟨true⟩ (by decide +kernel)
  refine ⟨hexact.refused 7 (by decide), mt (hexact.changed 2 (by decide)).1 (by decide),
    (hunpacking (by decide +kernel) (by decide +kernel)).2 150, hdecision, hrun _ ?_⟩
  simp [asking]

end Sandbox
end BlindArena
