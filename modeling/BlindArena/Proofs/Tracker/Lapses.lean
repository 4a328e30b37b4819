import BlindArena.Proofs.Tracker.Blind
import BlindArena.Proofs.Tracker.Control
import BlindArena.Proofs.Tracker.Within

/-!
# More reads that fail

One blind is played twice over the same figures, and reads that fail the first time fail the second
time too. As long as figures never fall, what is read last the second time is no more than the first
time, and so is the pay if both count from the same baseline. But an entry that is not answered
counts from nothing at all: figures that are read later are then paid in full, with what was there
before the blind.
-/

namespace BlindArena

namespace Snapshot

theorem field_le_getLastD {field : Snapshot → Int} {a x : Snapshot} {l : List Snapshot}
    (h : ((a :: l).map field).Pairwise (· ≤ ·)) (hx : x ∈ a :: l) :
    field x ≤ field (l.getLastD a) := by
  rw [List.pairwise_map] at h
  rw [← List.getLast_eq_getLastD (List.cons_ne_nil a l)]
  have hrefl : Std.Refl fun a b : Snapshot => field a ≤ field b := ⟨fun _ => le_rfl⟩
  exact h.rel_getLast hx

/-- The baseline does not matter to how far figures move. -/
theorem minus_sub_minus (a b c : Snapshot) : (a.minus c).sub (b.minus c) = a.sub b := by
  have hcancel (x y z : Int) : Amount.sub (x - z) (y - z) = Amount.sub x y := by
    rw [Amount.sub, Amount.sub, show x - z - (y - z) = x - y by omega]
  simp only [sub, minus, hcancel]

theorem UpTo.field_nonneg {most : Int} {s : Snapshot} (h : s.UpTo most) {field : Snapshot → Int}
    (hfield : field ∈ fields) : 0 ≤ field s := by
  rcases mem_fields.1 hfield with rfl | rfl
  · exact h.score.1
  · exact h.money.1

/-- Figures that start from nothing and never fall. -/
def Rising (figures : List Snapshot) : Prop :=
  ∀ field ∈ fields, (({} :: figures).map field).Pairwise (· ≤ ·)

theorem Rising.sublist {figures fewer : List Snapshot} (h : Rising figures)
    (hsub : fewer.Sublist figures) : Rising fewer := by
  intro field hfield
  exact (h field hfield).sublist ((hsub.cons_cons {}).map field)

theorem rising_of_upTo {most : Int} {figures : List Snapshot}
    (hupTo : ∀ s ∈ figures, s.UpTo most)
    (hrise : ∀ field ∈ fields, (figures.map field).Pairwise (· ≤ ·)) : Rising figures := by
  intro field hfield
  rw [List.map_cons, List.pairwise_cons]
  refine ⟨?_, hrise field hfield⟩
  rintro _ hmem
  obtain ⟨s, hs, rfl⟩ := List.mem_map.1 hmem
  rw [field_default hfield]
  exact (hupTo s hs).field_nonneg hfield

end Snapshot

namespace Cue

/-- The turns of which some are not answered. -/
def failing (fails : Nat → Bool) (cues : List Cue) : List Cue :=
  cues.mapIdx fun k cue => if fails k then cue.unread else cue

theorem failing_cons (fails : Nat → Bool) (cue : Cue) (cues : List Cue) :
    failing fails (cue :: cues) =
      (if fails 0 then cue.unread else cue) :: failing (fun k => fails (k + 1)) cues :=
  List.mapIdx_cons

theorem failing_failing {fewer more : Nat → Bool} (h : ∀ k, fewer k = true → more k = true)
    (cues : List Cue) : failing more (failing fewer cues) = failing more cues := by
  rw [failing, failing, List.mapIdx_mapIdx]
  apply congrArg (List.mapIdx · cues)
  funext k cue
  by_cases hfewer : fewer k = true
  · simp [hfewer, h k hfewer, unread]
  · simp [hfewer]

theorem phases_failing (fails : Nat → Bool) (cues : List Cue) :
    (failing fails cues).map (·.report.phase) = cues.map (·.report.phase) := by
  induction cues generalizing fails with
  | nil => rfl
  | cons cue cues ih =>
    rw [failing_cons, List.map_cons, List.map_cons, ih]
    by_cases hfails : fails 0 = true
    · rw [if_pos hfails]
      rfl
    · rw [if_neg hfails]

theorem Onward.failing {prev : Option Phase} {cues : List Cue} (h : Onward prev cues)
    (fails : Nat → Bool) : Onward prev (Cue.failing fails cues) := by
  rwa [Onward, phases_failing]

theorem figures_failing_sublist (fails : Nat → Bool) (cues : List Cue) :
    (figures (failing fails cues)).Sublist (figures cues) := by
  induction cues generalizing fails with
  | nil => exact .refl _
  | cons cue cues ih =>
    have hrest := ih fun k => fails (k + 1)
    rw [failing_cons]
    by_cases hfails : fails 0 = true
    · rw [if_pos hfails, figures_cons_none _ rfl]
      exact hrest.trans (figures_sublist_cons cue cues)
    · rw [if_neg hfails]
      cases hread : cue.read with
      | none => rwa [figures_cons_none _ hread, figures_cons_none _ hread]
      | some read =>
        rw [figures_cons_some _ hread, figures_cons_some _ hread]
        exact hrest.cons_cons read

end Cue

namespace Tracker
variable {t : Tracker} {base last : Snapshot} {most : Int} {first : Report} {entry : Cue}
  {cues : List Cue}

theorem Counting.exists_play {cue : Cue} (hmost : Amount.Fits most) (h : Counting base last t)
    (hbase : base.UpTo most) (hlast : last.UpTo most)
    (hread : ∀ figures, cue.read = some figures → figures.UpTo most) :
    ∃ turn, cue.play t = .ok turn := by
  obtain ⟨tier, hbaseline⟩ := h.baseline
  apply exists_turn
  · intro absolute baseline _ habsolute hsome
    obtain rfl := Option.some.inj (hbaseline.symm.trans hsome)
    exact (Snapshot.sub_of_upTo hmost (hread absolute habsolute) hbase).imp fun _ => And.left
  · intro t' hf
    have hcurrent : ∃ now : Snapshot, now.UpTo most ∧ t'.current = now.minus base := by
      refine hf.current_elim (P := fun s => ∃ now, Snapshot.UpTo most now ∧ s = now.minus base)
        ⟨last, hlast, h.current⟩ ?_
      intro absolute baseline current _ habsolute hsome hcounted
      obtain rfl := Option.some.inj (hbaseline.symm.trans hsome)
      exact ⟨absolute, hread absolute habsolute, Snapshot.eq_minus_of_sub hcounted⟩
    obtain ⟨now, hnow, hcurrent⟩ := hcurrent
    have hprevious : t'.previous = last.minus base :=
      hf.previous_eq.trans (h.settled.trans h.current)
    rw [hcurrent, hprevious, Snapshot.minus_sub_minus]
    exact (Snapshot.sub_of_upTo hmost hnow hlast).imp fun _ => And.left

theorem Counting.exists_moves (hmost : Amount.Fits most) (h : Counting base last t)
    (hgo : Cue.Onward t.prevPhase cues) (hbase : base.UpTo most) (hlast : last.UpTo most)
    (hreads : ∀ s ∈ Cue.figures cues, s.UpTo most) : ∃ ms, t.moves cues = .ok ms := by
  induction cues generalizing t last with
  | nil => exact ⟨[], rfl⟩
  | cons cue cues ih =>
    obtain ⟨hgoes, hrest⟩ := Cue.onward_cons.1 hgo
    have hread (s : Snapshot) (hs : cue.read = some s) : s.UpTo most :=
      hreads s (Cue.mem_figures.2 ⟨cue, List.mem_cons_self, hs⟩)
    obtain ⟨turn, hplay⟩ := h.exists_play hmost hbase hlast hread
    obtain ⟨hnext, hprev, -, -⟩ := h.play (refreshes_of_goesOn h.started hgoes) hplay
    have hnow : (cue.read.getD last).UpTo most := by
      cases hsome : cue.read with
      | none => exact hlast
      | some now => exact hread now hsome
    rw [← hprev] at hrest
    obtain ⟨later, hlater⟩ := ih hnext hrest hnow fun s hs =>
      hreads s ((Cue.figures_sublist_cons cue cues).subset hs)
    exact ⟨_, moves_cons hplay hlater⟩

theorem exists_play_begin (first : Report) (cue : Cue) :
    ∃ turn, cue.play (begin first) = .ok turn := by
  have hidle (phase : Option Phase) : (begin first).refreshes phase = false := by
    simp [refreshes, Tracker.begin, arrive]
  apply exists_turn
  · intro absolute baseline hr
    simp [hidle] at hr
  · intro t' hf
    have hcurrent : t'.current = {} := (hf.figures_eq (hidle _)).1
    have hprevious : t'.previous = {} := hf.previous_eq
    rw [hcurrent, hprevious]
    exact ⟨{}, rfl⟩

theorem exists_moves_of_blind (hmost : Amount.Fits most) (hpositive : 0 ≤ most)
    (hfirst : first.phase ≠ some .playing) (hentry : entry.report.phase = some .playing)
    (hgo : Cue.Onward (some .playing) cues)
    (hreads : ∀ s ∈ Cue.figures (entry :: cues), s.UpTo most) :
    ∃ ms, (begin first).moves (entry :: cues) = .ok ms := by
  obtain ⟨turn, hplay⟩ := exists_play_begin first entry
  obtain ⟨hcounting, hprev, -⟩ := counting_of_entry hfirst hentry hplay
  have hopening : (entry.read.getD {}).UpTo most := by
    cases hread : entry.read with
    | none => constructor <;> exact ⟨le_rfl, hpositive⟩
    | some opening => exact hreads opening (Cue.mem_figures.2 ⟨entry, List.mem_cons_self, hread⟩)
  rw [← hprev] at hgo
  obtain ⟨later, hlater⟩ := hcounting.exists_moves hmost hgo hopening hopening fun s hs =>
    hreads s ((Cue.figures_sublist_cons entry cues).subset hs)
  exact ⟨_, moves_cons hplay hlater⟩

/-- A blind whose figures never fall pays what was read last, less what was read at its entry. -/
theorem gains_of_rising (hmost : Amount.Fits most) (hpositive : 0 ≤ most)
    (hfirst : first.phase ≠ some .playing) (hentry : entry.report.phase = some .playing)
    (hgo : Cue.Onward (some .playing) cues)
    (hreads : ∀ s ∈ Cue.figures (entry :: cues), s.UpTo most)
    (hrise : Snapshot.Rising (Cue.figures (entry :: cues))) :
    ∃ ms gains, (begin first).moves (entry :: cues) = .ok ms ∧ ms.mapM Move.gains = .ok gains ∧
      ∀ field ∈ Snapshot.fields, (gains.map field).sum =
        field ((Cue.figures (entry :: cues)).getLastD {}) - field (entry.read.getD {}) := by
  obtain ⟨ms, hrun⟩ := exists_moves_of_blind hmost hpositive hfirst hentry hgo hreads
  obtain ⟨gains, hgains, hsum⟩ := gains_of_blind hfirst hentry hgo hrun
  refine ⟨ms, gains, hrun, hgains, fun field hfield => ?_⟩
  rw [Cue.getLastD_figures_cons]
  apply hsum field hfield
  have hfigures := hrise field hfield
  cases hread : entry.read with
  | none => rwa [Cue.figures_cons_none _ hread] at hfigures
  | some opening =>
    rw [Cue.figures_cons_some _ hread, List.map_cons] at hfigures
    exact hfigures.of_cons

variable {plays ends : List Cue} {fewer more : Nat → Bool}

theorem gains_of_failing (fails : Nat → Bool) (hmost : Amount.Fits most) (hpositive : 0 ≤ most)
    (hfirst : first.phase ≠ some .playing) (hblind : Cue.OneBlind entry plays ends)
    (hreads : ∀ s ∈ Cue.figures (entry :: (plays ++ ends)), s.UpTo most)
    (hrise : Snapshot.Rising (Cue.figures (entry :: (plays ++ ends)))) :
    let cues := Cue.failing fails (entry :: (plays ++ ends))
    ∃ ms gains, (begin first).moves cues = .ok ms ∧ ms.mapM Move.gains = .ok gains ∧
      ∀ field ∈ Snapshot.fields, (gains.map field).sum =
        field ((Cue.figures cues).getLastD {}) -
          field (if fails 0 then {} else entry.read.getD {}) := by
  intro cues
  have hfewer := Cue.figures_failing_sublist fails (entry :: (plays ++ ends))
  have hgo := hblind.onward.failing fun k => fails (k + 1)
  have hreads (s : Snapshot) (hs : s ∈ Cue.figures cues) : s.UpTo most :=
    hreads s (hfewer.subset hs)
  have hrise := hrise.sublist hfewer
  simp only [cues, Cue.failing_cons] at hreads hrise ⊢
  by_cases hfails : fails 0 = true
  · simp only [if_pos hfails] at hreads hrise ⊢
    exact gains_of_rising hmost hpositive hfirst hblind.entry hgo hreads hrise
  · simp only [if_neg hfails] at hreads hrise ⊢
    exact gains_of_rising hmost hpositive hfirst hblind.entry hgo hreads hrise

theorem field_last_failing_le (hrise : Snapshot.Rising (Cue.figures cues))
    (hmore : ∀ k, fewer k = true → more k = true) {field : Snapshot → Int}
    (hfield : field ∈ Snapshot.fields) :
    field ((Cue.figures (Cue.failing more cues)).getLastD {}) ≤
      field ((Cue.figures (Cue.failing fewer cues)).getLastD {}) := by
  have hrise := hrise.sublist (Cue.figures_failing_sublist fewer cues)
  apply Snapshot.field_le_getLastD (hrise field hfield)
  rw [← Cue.failing_failing hmore cues]
  have hsub := Cue.figures_failing_sublist more (Cue.failing fewer cues)
  exact (hsub.cons_cons {}).subset List.getLastD_mem_cons

/-- One blind under two patterns of failure, of which the second fails wherever the first does. It
pays no more under the second unless that one alone fails at the entry. Then figures are paid in
full, and no more is paid exactly if those that are read last, together with those at the entry, do
not exceed what is read last under the first pattern. -/
theorem gains_le_iff_of_failing (hfirst : first.phase ≠ some .playing)
    (hblind : Cue.OneBlind entry plays ends) (hmore : ∀ k, fewer k = true → more k = true) :
    let cues := entry :: (plays ++ ends)
    (∀ s ∈ Cue.figures cues, s.UpTo (2 ^ 63 - 1)) →
    (∀ field ∈ Snapshot.fields, ((Cue.figures cues).map field).Pairwise (· ≤ ·)) →
    ∃ ms ms' gains gains', (begin first).moves (Cue.failing fewer cues) = .ok ms ∧
      (begin first).moves (Cue.failing more cues) = .ok ms' ∧
      ms.mapM Move.gains = .ok gains ∧ ms'.mapM Move.gains = .ok gains' ∧
      ∀ field ∈ Snapshot.fields,
        let last (fails : Nat → Bool) := field ((Cue.figures (Cue.failing fails cues)).getLastD {})
        ((gains'.map field).sum ≤ (gains.map field).sum ↔
          (fewer 0 = false → more 0 = true →
            last more + field (entry.read.getD {}) ≤ last fewer)) := by
  intro cues hreads hrise
  have hrising := Snapshot.rising_of_upTo hreads hrise
  have hmost : Amount.Fits (2 ^ 63 - 1) := by decide
  obtain ⟨ms, gains, hrun, hgains, hsum⟩ :=
    gains_of_failing fewer hmost (by decide) hfirst hblind hreads hrising
  obtain ⟨ms', gains', hrun', hgains', hsum'⟩ :=
    gains_of_failing more hmost (by decide) hfirst hblind hreads hrising
  refine ⟨ms, ms', gains, gains', hrun, hrun', hgains, hgains', fun field hfield => ?_⟩
  intro last
  have hlast : last more ≤ last fewer := field_last_failing_le hrising hmore hfield
  have hzero := Snapshot.field_default hfield
  rw [hsum field hfield, hsum' field hfield]
  change last more - _ ≤ last fewer - _ ↔ _
  -- the baselines differ only if the second pattern alone fails at the entry
  cases hopening : more 0 with
  | false =>
    have hfewer : fewer 0 = false := by
      by_contra hfails
      rw [hmore 0 (by simpa using hfails)] at hopening
      cases hopening
    simpa [hfewer] using hlast
  | true =>
    cases hfewer : fewer 0 with
    | false =>
      have hpaid : last more - 0 ≤ last fewer - field (entry.read.getD {}) ↔
          last more + field (entry.read.getD {}) ≤ last fewer := by omega
      simpa [hzero] using hpaid
    | true => simpa using hlast

/-- When the entry and the round end are not answered, 400 points and 4 of money are paid instead of
550 and 5. -/
theorem gains_le_iff_of_failing_of_late_rise :
    let cue (phase : Phase) (score money : Int) : Cue :=
      ⟨.input phase [], some ⟨score, money⟩, 0, 1000⟩
    let cues := [cue .playing 100 4, cue .playing 400 4, cue .roundEnd 650 9]
    let fewer (_ : Nat) : Bool := false
    let more (k : Nat) : Bool := k = 0 || k = 2
    ∃ ms ms' gains gains',
      (begin (.input .blindSelect [])).moves (Cue.failing fewer cues) = .ok ms ∧
      (begin (.input .blindSelect [])).moves (Cue.failing more cues) = .ok ms' ∧
      ms.mapM Move.gains = .ok gains ∧ ms'.mapM Move.gains = .ok gains' ∧
      ∀ field ∈ Snapshot.fields, (gains'.map field).sum ≤ (gains.map field).sum := by
  intro cue cues fewer more
  have hfirst : (Report.input .blindSelect []).phase ≠ some .playing := by simp [Report.input]
  have hblind : Cue.OneBlind (cue .playing 100 4) [cue .playing 400 4] [cue .roundEnd 650 9] :=
    ⟨rfl, by simp [cue, Report.input], by simp [cue, Report.input]⟩
  have hmore : ∀ k, fewer k = true → more k = true := by simp [fewer]
  have hreads : ∀ s ∈ Cue.figures cues, s.UpTo (2 ^ 63 - 1) := by
    change ∀ s ∈ [⟨100, 4⟩, ⟨400, 4⟩, ⟨650, 9⟩], Snapshot.UpTo _ s
    simp only [List.forall_mem_cons]
    refine ⟨⟨?_, ?_⟩, ⟨?_, ?_⟩, ⟨?_, ?_⟩, by simp⟩
    all_goals decide
  obtain ⟨ms, ms', gains, gains', hrun, hrun', hgains, hgains', hpaid⟩ :=
    gains_le_iff_of_failing hfirst hblind hmore hreads (by decide)
  refine ⟨ms, ms', gains, gains', hrun, hrun', hgains, hgains', fun field hfield => ?_⟩
  apply (hpaid field hfield).2
  intro _ _
  rcases Snapshot.mem_fields.1 hfield with rfl | rfl
  · decide
  · decide

/-- A read that fails can make for more pay: here the figures never move, and 100 points are paid
once the entry of the blind is not answered. -/
theorem not_gains_le_of_failing :
    ¬ ∀ (first : Report) (entry ending : Cue) (plays : List Cue) (fewer more : Nat → Bool)
      (ms ms' : List Move) (gains gains' : List Snapshot),
      first.phase = some .blindSelect → Cue.OneBlind entry plays [ending] →
      let cues := entry :: (plays ++ [ending])
      (∀ cue ∈ cues, ∃ figures, cue.read = some figures ∧ figures.UpTo (2 ^ 63 - 1)) →
      (∀ field ∈ Snapshot.fields, ((Cue.figures cues).map field).Pairwise (· ≤ ·)) →
      (∀ k, fewer k = true → more k = true) →
      (begin first).moves (Cue.failing fewer cues) = .ok ms →
      (begin first).moves (Cue.failing more cues) = .ok ms' →
      ms.mapM Move.gains = .ok gains → ms'.mapM Move.gains = .ok gains' →
      ∀ field ∈ Snapshot.fields, (gains'.map field).sum ≤ (gains.map field).sum := by
  intro h
  let cue (phase : Phase) : Cue := ⟨.input phase [], some ⟨100, 4⟩, 0, 1000⟩
  let fewer (_ : Nat) : Bool := false
  let more (k : Nat) : Bool := k = 0
  obtain ⟨ms, ms', gains, gains', hrun, hrun', hgains, hgains', hsum, hsum'⟩ :
      ∃ ms ms' gains gains',
        (begin (.input .blindSelect [])).moves
          (Cue.failing fewer [cue .playing, cue .roundEnd]) = .ok ms ∧
        (begin (.input .blindSelect [])).moves
          (Cue.failing more [cue .playing, cue .roundEnd]) = .ok ms' ∧
        ms.mapM Move.gains = .ok gains ∧ ms'.mapM Move.gains = .ok gains' ∧
        (gains.map Snapshot.score).sum = 0 ∧ (gains'.map Snapshot.score).sum = 100 :=
    ⟨_, _, _, _, rfl, rfl, rfl, rfl, rfl, rfl⟩
  have hblind : Cue.OneBlind (cue .playing) [] [cue .roundEnd] :=
    ⟨rfl, by simp, by simp [cue, Report.input]⟩
  have hreads : ∀ asked ∈ [cue .playing, cue .roundEnd],
      ∃ figures, asked.read = some figures ∧ figures.UpTo (2 ^ 63 - 1) := by
    have hcue (phase : Phase) : ∃ figures, (cue phase).read = some figures ∧
        figures.UpTo (2 ^ 63 - 1) := ⟨⟨100, 4⟩, rfl, by decide, by decide⟩
    exact List.forall_mem_cons.2 ⟨hcue _, List.forall_mem_singleton.2 (hcue _)⟩
  have hmore : ∀ k, fewer k = true → more k = true := by simp [fewer]
  have hscore : Snapshot.score ∈ Snapshot.fields := Snapshot.mem_fields.2 (Or.inl rfl)
  have hpaid := h _ (cue .playing) (cue .roundEnd) [] fewer more ms ms' gains gains' rfl hblind
    hreads (by decide) hmore hrun hrun' hgains hgains' Snapshot.score hscore
  rw [hsum, hsum'] at hpaid
  exact absurd hpaid (by decide)

end Tracker
end BlindArena
