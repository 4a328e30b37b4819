import BlindArena.Observation
import BlindArena.Proofs.Observation.Marks
import Mathlib.Data.List.Forall2

/-!
# What an observation keeps

The features of an observation are three sections in a row, each of a fixed length, and each can be
read back: the phase from its bit, the mask from its bits, the numbers as they are. So an encoding
drops nothing but the order and the repetition of the indices and those that have no bit. Two rows
of features can be compared entry by entry, as numbers or as bit patterns; either way they agree
only when their sections do.
-/

namespace BlindArena

/-- Rows that agree entry by entry agree at each place. -/
theorem rel_of_getElem? {α : Type} {r : α → α → Prop} {xs ys : List α} (h : List.Forall₂ r xs ys)
    {i : Nat} {x y : α} (hx : xs[i]? = some x) (hy : ys[i]? = some y) : r x y := by
  obtain ⟨hi, rfl⟩ := List.getElem?_eq_some_iff.1 hx
  obtain ⟨hi', rfl⟩ := List.getElem?_eq_some_iff.1 hy
  exact h.get hi hi'

theorem forall₂_beq_iff {α : Type} [BEq α] {xs ys : List α} :
    List.Forall₂ (fun x y => (x == y) = true) xs ys ↔ (xs == ys) = true := by
  induction xs generalizing ys with
  | nil => cases ys <;> simp
  | cons x xs ih =>
    cases ys with
    | nil => simp
    | cons y ys => simp [List.cons_beq_cons, ih]

theorem GameInfo.toList_injective {g g' : GameInfo} (h : g.toList = g'.toList) : g = g' := by
  obtain ⟨_, _, _, _, _, _, _, _, _, _⟩ := g
  obtain ⟨_, _, _, _, _, _, _, _, _, _⟩ := g'
  simpa [toList] using h

namespace Observation

/-! ## Sections -/

@[simp] theorem flag_beq_one (b : Bool) : (flag b == 1) = b := by cases b <;> decide

theorem flag_injective {b c : Bool} (h : flag b = flag c) : b = c := by
  rw [← flag_beq_one b, h, flag_beq_one]

theorem flag_beq_injective {b c : Bool} (h : (flag b == flag c) = true) : b = c := by
  cases c with
  | true => exact (flag_beq_one b).symm.trans h
  | false =>
    have hzero : (flag b == flag false) = !b := by cases b <;> decide
    simpa [hzero] using h

/-- The sections of a row of features. -/
structure Sections (features : List Float32) (phase : Nat) (mask : Mask) (info : GameInfo) :
    Prop where
  length : features.length = 116
  phase : ∀ i < 6, features[i]? = some (flag (i == phase))
  /-- Only one of the first six is set. -/
  single : (features.take 6).countP (· == 1) = 1
  available : ∀ i < actionSpace, features[6 + i]? = some (flag (mask.get i))
  gameInfo : features.drop (6 + actionSpace) = info.toList

variable {o o' : Observation}

theorem sections_features (h : o.phase < 6) :
    Sections o.features o.phase o.available o.gameInfo where
  length := o.length_features
  phase := fun i hi => by
    rw [features, List.append_assoc, List.getElem?_append_left (by simpa using hi)]
    simp [hi]
  single := by
    have hfirst : o.features.take 6 = (List.range 6).map fun i => flag (i == o.phase) := by
      rw [features, List.append_assoc, List.take_left' (by simp)]
    have hone : (List.range 6).count o.phase = 1 :=
      List.nodup_range.count.trans (if_pos (List.mem_range.2 h))
    rw [hfirst, List.countP_map, ← hone]
    exact List.countP_congr fun i _ => by simp
  available := fun i hi => by
    have hbits : o.available.bits.toList[i]? = some (o.available.get i) := by
      rw [Mask.toList_bits, List.getElem?_map, List.getElem?_range hi, Option.map_some]
    rw [features, List.append_assoc, List.getElem?_append_right (by simp),
      List.getElem?_append_left (by simpa using hi)]
    simp [hbits]
  gameInfo := by
    rw [features, List.drop_left' (by simp)]

/-! ## Reading back -/

/-- Rows of features that agree, in any way that tells flags apart, have the same phase and mask and
numbers that agree. -/
theorem sections_agree {r : Float32 → Float32 → Prop}
    (hflag : ∀ b c, r (flag b) (flag c) → b = c) (hphase : o.phase < 6) (hphase' : o'.phase < 6)
    (h : List.Forall₂ r o.features o'.features) :
    o.phase = o'.phase ∧ o.available = o'.available ∧
      List.Forall₂ r o.gameInfo.toList o'.gameInfo.toList := by
  have hleft := sections_features hphase
  have hright := sections_features hphase'
  refine ⟨?_, Mask.ext_get fun i hi => ?_, ?_⟩
  · have hset := rel_of_getElem? h (hleft.phase o.phase hphase) (hright.phase o.phase hphase)
    simpa using (hflag _ _ hset).symm
  · exact hflag _ _ (rel_of_getElem? h (hleft.available i hi) (hright.available i hi))
  · rw [← hleft.gameInfo, ← hright.gameInfo]
    exact List.forall₂_drop _ h

theorem eq_of_features (hphase : o.phase < 6) (hphase' : o'.phase < 6)
    (h : o.features = o'.features) : o = o' := by
  rw [← List.forall₂_eq_eq_eq] at h
  obtain ⟨hsame, hmask, hinfo⟩ :=
    sections_agree (fun _ _ => flag_injective) hphase hphase' h
  rw [List.forall₂_eq_eq_eq] at hinfo
  obtain ⟨phase, available, gameInfo⟩ := o
  obtain rfl : phase = o'.phase := hsame
  obtain rfl : available = o'.available := hmask
  obtain rfl := GameInfo.toList_injective hinfo
  rfl

theorem beq_of_features (hphase : o.phase < 6) (hphase' : o'.phase < 6)
    (h : (o.features == o'.features) = true) :
    o.phase = o'.phase ∧ o.available = o'.available ∧
      (o.gameInfo.toList == o'.gameInfo.toList) = true := by
  rw [← forall₂_beq_iff] at h ⊢
  exact sections_agree (fun _ _ => flag_beq_injective) hphase hphase' h

/-- A mask and the set of indices that have a bit determine each other, and the features of an
encoding determine its phase, its mask and its numbers. -/
theorem encoding_lossless :
    (∀ mask : Mask, mask.indices.Pairwise (· < ·) ∧ mask.count = mask.indices.length ∧
      Mask.ofIndices mask.indices = mask) ∧
    (∀ legal : List Index, legal.foldl Mask.mark Mask.empty = Mask.ofIndices legal ∧
      ∀ i, (i ∈ (Mask.ofIndices legal).indices ↔ i ∈ legal ∧ i < actionSpace) ∧
        ((Mask.ofIndices legal).get i = true ↔ i ∈ legal ∧ i < actionSpace)) ∧
    (∀ legal legal' : List Index, Mask.ofIndices legal = Mask.ofIndices legal' ↔
      ∀ i < actionSpace, i ∈ legal ↔ i ∈ legal') ∧
    ∀ phase legal t, let o := encode phase legal t
      Sections o.features (Phase.encode phase) (Mask.ofIndices legal) o.gameInfo ∧
      ∀ phase' legal' t', let o' := encode phase' legal' t'
        (o.features = o'.features → o = o') ∧
        ((o.features == o'.features) = true → o.phase = o'.phase ∧ o.available = o'.available ∧
          (o.gameInfo.toList == o'.gameInfo.toList) = true) := by
  refine ⟨fun mask => ⟨mask.pairwise_indices, mask.count_eq, mask.ofIndices_indices⟩,
    fun legal => ⟨Mask.foldl_mark legal, fun i => ⟨Mask.mem_indices_ofIndices,
      Mask.get_ofIndices_iff⟩⟩, fun _ _ => Mask.ofIndices_eq_iff, fun phase legal t => ?_⟩
  have hphase := Phase.encode_lt phase
  refine ⟨sections_features (o := encode phase legal t) hphase, fun phase' legal' t' => ?_⟩
  have hphase' := Phase.encode_lt phase'
  exact ⟨eq_of_features (o := encode phase legal t) hphase hphase',
    beq_of_features (o := encode phase legal t) hphase hphase'⟩

/-- An index twice, one past the mask, the last one that has a bit, and two phases. -/
theorem encoding_lossless_of_repeats :
    let o := encode (some .roundEnd) [150, 99, 3, 99] {}
    Mask.ofIndices [150, 99, 3, 99] = Mask.ofIndices [3, 99, 4096] ∧
      o.available.get 150 = false ∧ 99 ∈ o.available.indices ∧
      o.features[4]? = some 1 ∧ o.features[6 + 99]? = some 1 ∧
      o.features ≠ (encode (some .playing) [150, 99, 3, 99] {}).features := by
  intro o
  obtain ⟨-, hmarks, hsame, hencoding⟩ := encoding_lossless
  obtain ⟨hsections, hfeatures⟩ := hencoding (some .roundEnd) [150, 99, 3, 99] {}
  obtain ⟨-, hmember⟩ := hmarks [150, 99, 3, 99]
  refine ⟨(hsame _ _).2 fun i hi => ?_,
    (Bool.not_eq_true _).mp (mt (hmember 150).2.1 (by decide)),
    (hmember 99).1.2 (by decide), hsections.phase 4 (by decide),
    (hsections.available 99 (by decide)).trans (by rw [(hmember 99).2.2 (by decide)]; rfl),
    fun h => ?_⟩
  · have hne : i ≠ 150 ∧ i ≠ 4096 := by
      simp only [actionSpace] at hi
      omega
    simp only [List.mem_cons, List.not_mem_nil, hne, or_false, false_or]
    tauto
  · have hphase := congrArg Observation.phase ((hfeatures (some .playing) _ {}).1 h)
    cases hphase

end Observation
end BlindArena
