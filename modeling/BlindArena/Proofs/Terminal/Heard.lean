import BlindArena.Proofs.Terminal.Wiring

/-!
# What is heard of a console

What a channel is heard to say has reached the terminal, or is held back as an unfinished line and
will reach it when that is flushed. Neither the beginning of silence nor its end changes this: what
is held back is flushed on both occasions, before anything is redirected.
-/

namespace BlindArena

namespace Descriptors

/-- Both channels write to the terminal. -/
def Attached (table : Descriptors) : Prop :=
  ∀ channel : Channel, table.device? channel.descriptor = some (.terminal channel)

/-- What is written to either channel is lost. -/
def Quiet (table : Descriptors) : Prop :=
  ∀ channel : Channel, table.device? channel.descriptor = some .sink

theorem Attached.open {table : Descriptors} (h : table.Attached) : table.Open :=
  fun channel => ⟨_, h channel⟩

end Descriptors

namespace Console
open Descriptors
variable {console : Console} {original : Descriptors} {periods : Nat}

/-- What a channel has said to the terminal, an unfinished line included. -/
def heard (console : Console) : Channel → String
  | .out => console.flush.shownOut
  | .err => console.shownErr

theorem deliver_of_out (h : console.table.device? Channel.out.descriptor = some (.terminal .out))
    (text : String) :
    console.deliver .out text = { console with shownOut := console.shownOut ++ text } := by
  unfold deliver
  rw [h]

theorem deliver_of_err (h : console.table.device? Channel.err.descriptor = some (.terminal .err))
    (text : String) :
    console.deliver .err text = { console with shownErr := console.shownErr ++ text } := by
  unfold deliver
  rw [h]

theorem deliver_of_sink {channel : Channel}
    (h : console.table.device? channel.descriptor = some .sink) (text : String) :
    console.deliver channel text = console := by
  unfold deliver
  rw [h]

theorem splitLines_append (text : String) :
    (splitLines text).1 ++ (splitLines text).2 = text := by
  unfold splitLines
  dsimp only
  rw [← String.ofList_append, ← List.reverse_append, List.takeWhile_append_dropWhile,
    List.reverse_reverse, String.ofList_toList]

theorem table_write (console : Console) (channel : Channel) (text : String) :
    (console.write channel text).table = console.table :=
  congrArg Wiring.table (wiring_write console channel text)

/-! ## At the terminal -/

section attached
variable (h : console.table.Attached)

include h

theorem heard_out_of_attached : console.heard .out = console.shownOut ++ console.pending := by
  rw [heard, flush, deliver_of_out (h .out)]

theorem write_of_attached (text : String) :
    console.write .out text =
      { console with
        shownOut := console.shownOut ++ (splitLines (console.pending ++ text)).1
        pending := (splitLines (console.pending ++ text)).2 } := by
  have hlines := deliver_of_out (h .out) (splitLines (console.pending ++ text)).1
  show { console.deliver .out (splitLines (console.pending ++ text)).1 with
    pending := (splitLines (console.pending ++ text)).2 } = _
  rw [hlines]

theorem heard_write_of_attached (channel other : Channel) (text : String) :
    (console.write channel text).heard other =
      console.heard other ++ if channel = other then text else "" := by
  have hafter : (console.write channel text).table.Attached := by
    rw [table_write]
    exact h
  cases other with
  | out =>
    rw [heard_out_of_attached hafter, heard_out_of_attached h]
    cases channel with
    | out =>
      rw [write_of_attached h, if_pos rfl, String.append_assoc, String.append_assoc,
        splitLines_append]
    | err => rw [write, deliver_of_err (h .err), if_neg (by decide), String.append_empty]
  | err =>
    cases channel with
    | out => rw [write_of_attached h, if_neg (by decide), String.append_empty, heard, heard]
    | err => rw [write, deliver_of_err (h .err), if_pos rfl, heard, heard]

theorem heard_flush_of_attached (channel : Channel) :
    console.flush.heard channel = console.heard channel := by
  have hafter : console.flush.table.Attached := by
    rw [table_flush]
    exact h
  cases channel with
  | out =>
    rw [heard_out_of_attached hafter, heard]
    exact String.append_empty
  | err => rw [heard, heard, flush, deliver_of_out (h .out)]

end attached

/-! ## At the sink -/

section quiet
variable (h : console.table.Quiet)

include h

theorem heard_out_of_quiet : console.heard .out = console.shownOut := by
  rw [heard, flush, deliver_of_sink (h .out)]

theorem heard_write_of_quiet (channel other : Channel) (text : String) :
    (console.write channel text).heard other = console.heard other := by
  have hafter : (console.write channel text).table.Quiet := by
    rw [table_write]
    exact h
  have hshown : (console.write channel text).shownOut = console.shownOut ∧
      (console.write channel text).shownErr = console.shownErr := by
    cases channel with
    | out =>
      show (console.deliver .out _).shownOut = _ ∧ (console.deliver .out _).shownErr = _
      rw [deliver_of_sink (h .out)]
      exact ⟨rfl, rfl⟩
    | err =>
      rw [write, deliver_of_sink (h .err)]
      exact ⟨rfl, rfl⟩
  cases other with
  | out => rw [heard_out_of_quiet hafter, heard_out_of_quiet h, hshown.1]
  | err => exact hshown.2

theorem heard_flush_of_quiet (channel : Channel) :
    console.flush.heard channel = console.heard channel := by
  have hafter : console.flush.table.Quiet := by
    rw [table_flush]
    exact h
  cases channel with
  | out => rw [heard_out_of_quiet hafter, heard]
  | err => rw [heard, heard, flush, deliver_of_sink (h .out)]

end quiet

/-! ## Through silence -/

/-- Redirecting shows nothing. -/
theorem shown_engage (console : Console) :
    console.engage.shownOut = console.flush.shownOut ∧
      console.engage.shownErr = console.flush.shownErr := by
  simp only [engage, silence, and_self]

theorem shown_disengage (console : Console) :
    console.disengage.shownOut = console.flush.shownOut ∧
      console.disengage.shownErr = console.flush.shownErr ∧ console.disengage.pending = "" := by
  have hrestored (saved : List (Channel × Nat)) (c : Console) :
      (saved.foldl restore c).shownOut = c.shownOut ∧
        (saved.foldl restore c).shownErr = c.shownErr ∧
        (saved.foldl restore c).pending = c.pending := by
    induction saved generalizing c with
    | nil => exact ⟨rfl, rfl, rfl⟩
    | cons one saved ih => exact ih (c.restore one)
  exact hrestored _ console.flush

theorem heard_depth (console : Console) (depth : Nat) (channel : Channel) :
    ({ console with depth := depth } : Console).heard channel = console.heard channel := by
  cases channel with
  | out =>
    unfold heard flush deliver
    dsimp only
    split <;> rfl
  | err => rfl

section wired
variable (hattached : original.Attached) (h : console.wiring.InOrder original periods)

include hattached h

/-- Nothing is lost unless silence is requested. -/
theorem attached_or_quiet :
    console.depth = 0 ∧ console.table.Attached ∨ 0 < console.depth ∧ console.table.Quiet := by
  cases h with
  | loud hdepth _ _ hdevices _ =>
    exact .inl ⟨hdepth, fun channel => (hdevices _).trans (hattached channel)⟩
  | silent hdepth _ _ hdevices _ =>
    exact .inr ⟨hdepth, fun channel => (hdevices _).trans (muted_channel original channel)⟩

/-- What is written is heard unless silence is requested. -/
theorem heard_write (channel other : Channel) (text : String) :
    (console.write channel text).heard other =
      console.heard other ++ if console.depth = 0 ∧ channel = other then text else "" := by
  obtain ⟨hdepth, hloud⟩ | ⟨hdepth, hquiet⟩ := attached_or_quiet hattached h
  · rw [heard_write_of_attached hloud]
    simp only [hdepth, true_and]
  · have hnot : ¬(console.depth = 0 ∧ channel = other) := fun hboth =>
      absurd hboth.1 (Nat.ne_of_gt hdepth)
    rw [heard_write_of_quiet hquiet, if_neg hnot, String.append_empty]

theorem heard_flush (channel : Channel) : console.flush.heard channel = console.heard channel := by
  obtain ⟨-, hloud⟩ | ⟨-, hquiet⟩ := attached_or_quiet hattached h
  · exact heard_flush_of_attached hloud channel
  · exact heard_flush_of_quiet hquiet channel

/-- What is held back when silence begins is flushed first. -/
theorem heard_acquire (channel : Channel) :
    console.acquire.heard channel = console.heard channel := by
  cases h with
  | loud hdepth _ _ hdevices _ =>
    have hloud : console.table.Attached := fun channel' => (hdevices _).trans (hattached channel')
    have hquiet : console.engage.table.Quiet := fun channel' =>
      (device?_engage hattached.open hdevices _).trans (muted_channel original channel')
    rw [acquire_of_loud hdepth, heard_depth, ← heard_flush_of_attached hloud channel]
    cases channel with
    | out =>
      have hafter : console.flush.table.Attached := by
        rw [table_flush]
        exact hloud
      rw [heard_out_of_quiet hquiet, heard_out_of_attached hafter, (shown_engage console).1]
      exact String.append_empty.symm
    | err => exact (shown_engage console).2
  | silent hdepth => rw [acquire_of_silent hdepth, heard_depth]

/-- What is held back when silence ends is flushed first, and lost. -/
theorem heard_release (hdepth : 0 < console.depth) (channel : Channel) :
    console.release.heard channel = console.heard channel := by
  cases h with
  | loud hnone => exact absurd hnone (Nat.ne_of_gt hdepth)
  | silent _ hsink hsaved hdevices _ =>
    by_cases hlast : console.depth = 1
    · let last : Console := { console with depth := 0 }
      have hdevices₀ (d : Nat) : last.table.device? d = original.muted d := hdevices d
      have hquiet : last.table.Quiet := fun channel' =>
        (hdevices₀ _).trans (muted_channel original channel')
      have hloud : last.disengage.table.Attached := fun channel' =>
        (device?_disengage hattached.open hdevices₀ hsink hsaved _).trans (hattached channel')
      obtain ⟨hout, herr, hpending⟩ := shown_disengage last
      rw [release_of_last hlast, ← heard_depth console 0 channel]
      cases channel with
      | out => rw [heard_out_of_attached hloud, hpending, hout, String.append_empty, heard]
      | err => exact herr.trans (heard_flush_of_quiet hquiet .err)
    · have hmore : 1 < console.depth := by omega
      rw [release_of_more hmore, heard_depth]

end wired

end Console
end BlindArena
