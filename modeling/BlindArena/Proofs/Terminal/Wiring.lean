import BlindArena.Proofs.Terminal.Table
import BlindArena.Terminal.Console

/-!
# The wiring of the console

What is written leaves the wiring alone. Silence takes a berth for the sink and one for a copy of
each channel's descriptor, and its withdrawal gives them up and puts back what was there before. So
periods of silence can follow one another, each with the same three descriptors.
-/

namespace BlindArena

/-- The part of a console that silence works on. -/
structure Wiring where
  table : Descriptors
  depth : Nat
  sink : Option Nat
  saved : List (Channel × Nat)

namespace Descriptors
variable {original : Descriptors}

/-- Both channels have a device. -/
def Open (table : Descriptors) : Prop :=
  ∀ channel : Channel, ∃ device, table.device? channel.descriptor = some device

/-- What a descriptor stands for while output is silenced. -/
def muted (original : Descriptors) (d : Nat) : Option Device :=
  if d = Channel.out.descriptor ∨ d = Channel.err.descriptor ∨ d = original.berths.sink then
    some .sink
  else if d = original.berths.copy .out then original.device? Channel.out.descriptor
  else if d = original.berths.copy .err then original.device? Channel.err.descriptor
  else original.device? d

/-- The channels' own descriptors are not among the berths. -/
theorem Open.descriptor_ne (hopen : original.Open) (channel : Channel) :
    channel.descriptor ≠ original.berths.sink ∧
      ∀ other, channel.descriptor ≠ original.berths.copy other := by
  obtain ⟨device, hdevice⟩ := hopen channel
  have hfree := (berths_free original).2
  have hne (place : Nat) (hplace : place ∈ original.berths.places) :
      channel.descriptor ≠ place := by
    rintro rfl
    rw [hfree _ hplace] at hdevice
    cases hdevice
  refine ⟨hne _ (by simp [Berths.places]), fun other => hne _ ?_⟩
  cases other <;> simp [Berths.places]

theorem berths_ne (original : Descriptors) :
    (∀ channel, original.berths.sink ≠ original.berths.copy channel) ∧
      original.berths.copy .out ≠ original.berths.copy .err := by
  have hnodup := (berths_free original).1
  simp only [Berths.places, List.nodup_cons, List.mem_cons, not_or] at hnodup
  refine ⟨fun channel => ?_, hnodup.2.1.1⟩
  cases channel with
  | out => exact hnodup.1.1
  | err => exact hnodup.1.2.1

theorem device?_berths (original : Descriptors) :
    original.device? original.berths.sink = none ∧
      ∀ channel, original.device? (original.berths.copy channel) = none := by
  have hfree := (berths_free original).2
  refine ⟨hfree _ (by simp [Berths.places]), fun channel => hfree _ ?_⟩
  cases channel <;> simp [Berths.places]

theorem muted_channel (original : Descriptors) (channel : Channel) :
    original.muted channel.descriptor = some .sink := by
  cases channel <;> simp [muted]

theorem muted_sink (original : Descriptors) :
    original.muted original.berths.sink = some .sink := by
  simp [muted]

theorem Open.muted_copy (hopen : original.Open) (channel : Channel) :
    original.muted (original.berths.copy channel) = original.device? channel.descriptor := by
  have hout := hopen.descriptor_ne .out
  have herr := hopen.descriptor_ne .err
  have hberths := berths_ne original
  unfold muted
  cases channel with
  | out => rw [if_neg (by grind), if_pos rfl]
  | err => rw [if_neg (by grind), if_neg hberths.2.symm, if_pos rfl]

end Descriptors

namespace Descriptors.Berths

def saved (berths : Berths) : List (Channel × Nat) :=
  [(.out, berths.copy .out), (.err, berths.copy .err)]

/-- How silence begins on the record, latest first. -/
def openings (berths : Berths) : List Traffic :=
  [.opened (berths.copy .err), .opened (berths.copy .out), .opened berths.sink]

/-- How it ends. -/
def closings (berths : Berths) : List Traffic :=
  [.closed berths.sink, .closed (berths.copy .out), .closed (berths.copy .err)]

end Descriptors.Berths

namespace Console
open Descriptors
variable {console : Console} {original : Descriptors} {channel : Channel} {device : Device}

def wiring (console : Console) : Wiring :=
  ⟨console.table, console.depth, console.sink, console.saved⟩

@[simp] theorem wiring_deliver (console : Console) (channel : Channel) (text : String) :
    (console.deliver channel text).wiring = console.wiring := by
  unfold deliver
  split <;> rfl

@[simp] theorem wiring_flush (console : Console) : console.flush.wiring = console.wiring :=
  wiring_deliver console .out console.pending

theorem table_flush (console : Console) : console.flush.table = console.table :=
  congrArg Wiring.table (wiring_flush console)

theorem depth_flush (console : Console) : console.flush.depth = console.depth :=
  congrArg Wiring.depth (wiring_flush console)

theorem sink_flush (console : Console) : console.flush.sink = console.sink :=
  congrArg Wiring.sink (wiring_flush console)

theorem saved_flush (console : Console) : console.flush.saved = console.saved :=
  congrArg Wiring.saved (wiring_flush console)

@[simp] theorem wiring_write (console : Console) (channel : Channel) (text : String) :
    (console.write channel text).wiring = console.wiring := by
  cases channel with
  | out => exact wiring_deliver console .out (splitLines (console.pending ++ text)).1
  | err => exact wiring_deliver console .err text

theorem device?_silence (h : console.table.device? channel.descriptor = some device) {sink : Nat}
    (hsink : console.table.device? sink = some .sink) (d : Nat) :
    (console.silence sink channel).table.device? d =
      if d = channel.descriptor then some .sink
      else if d = console.table.lowestFree then some device
      else console.table.device? d := by
  have hcopied (e : Nat) : (console.table.duplicate channel.descriptor).1.device? e =
      if e = console.table.lowestFree then some device else console.table.device? e := by
    rw [duplicate, device?_openDevice, h]
  have hopen := hcopied channel.descriptor
  rw [if_neg (lowestFree_ne h).symm, h] at hopen
  have hkept := hcopied sink
  rw [if_neg (lowestFree_ne hsink).symm, hsink] at hkept
  show ((console.table.duplicate channel.descriptor).1.redirect sink
    channel.descriptor).device? d = _
  rw [device?_redirect hopen, hkept, hcopied]

@[simp] theorem depth_restore (console : Console) (one : Channel × Nat) :
    (console.restore one).depth = console.depth := rfl

theorem device?_restore {copy : Nat} {present : Device}
    (h : console.table.device? channel.descriptor = some present)
    (hcopy : console.table.device? copy = some device) (hne : copy ≠ channel.descriptor) (d : Nat) :
    (console.restore (channel, copy)).table.device? d =
      if d = copy then none
      else if d = channel.descriptor then some device
      else console.table.device? d := by
  have hput := device?_redirect h copy
  have hopen := hput copy
  rw [if_neg hne, hcopy] at hopen
  show ((console.table.redirect copy channel.descriptor).close copy).device? d = _
  rw [device?_close hopen, hput, hcopy]

/-! ## Silence begins -/

/-- Flushed, and with a sink. -/
def sunk (console : Console) : Console :=
  { console.flush with
    table := console.table.taken
    sink := some console.table.lowestFree }

theorem engage_eq (console : Console) :
    console.engage = (console.sunk.silence console.table.lowestFree .out).silence
      console.table.lowestFree .err := by
  unfold engage sunk taken
  rw [← table_flush console]
  rfl

section engage
variable (hopen : original.Open) (h : ∀ d, console.table.device? d = original.device? d)

include h

theorem free_of_same (d : Nat) : console.table.device? d = none ↔ original.device? d = none := by
  rw [h]

theorem lowestFree_same : console.table.lowestFree = original.berths.sink :=
  lowestFree_congr (free_of_same h)

theorem device?_sunk (d : Nat) :
    console.sunk.table.device? d =
      if d = original.berths.sink then some .sink else original.device? d := by
  rw [sunk, device?_taken, lowestFree_same h, h]

theorem lowestFree_sunk : console.sunk.table.lowestFree = original.berths.copy .out :=
  lowestFree_congr (free_taken_congr (free_of_same h))

include hopen

theorem device?_half (d : Nat) :
    (console.sunk.silence original.berths.sink .out).table.device? d =
      if d = Channel.out.descriptor then some .sink
      else if d = original.berths.copy .out then original.device? Channel.out.descriptor
      else if d = original.berths.sink then some .sink
      else original.device? d := by
  obtain ⟨device, hdevice⟩ := hopen .out
  have hout : console.sunk.table.device? Channel.out.descriptor = some device := by
    rw [device?_sunk h, if_neg (hopen.descriptor_ne .out).1, hdevice]
  have hsink : console.sunk.table.device? original.berths.sink = some .sink := by
    rw [device?_sunk h, if_pos rfl]
  rw [device?_silence hout hsink, lowestFree_sunk h, device?_sunk h, hdevice]

theorem lowestFree_half :
    (console.sunk.silence original.berths.sink .out).table.lowestFree =
      original.berths.copy .err := by
  refine lowestFree_congr fun d => ?_
  obtain ⟨device, hdevice⟩ := hopen .out
  have hout := hopen.descriptor_ne .out
  have hsecond : original.taken.lowestFree = original.berths.copy .out := rfl
  have hfirst : original.lowestFree = original.berths.sink := rfl
  rw [device?_half hopen h, free_taken, free_taken, hsecond, hfirst]
  grind

theorem device?_engage (d : Nat) : console.engage.table.device? d = original.muted d := by
  obtain ⟨device, hdevice⟩ := hopen .err
  have hout := hopen.descriptor_ne .out
  have herr := hopen.descriptor_ne .err
  have hberths := berths_ne original
  have hne : Channel.err.descriptor ≠ Channel.out.descriptor := by decide
  have hkept : (console.sunk.silence original.berths.sink .out).table.device?
      Channel.err.descriptor = some device := by
    rw [device?_half hopen h, if_neg hne, if_neg (herr.2 .out), if_neg herr.1, hdevice]
  have hsink : (console.sunk.silence original.berths.sink .out).table.device?
      original.berths.sink = some .sink := by
    rw [device?_half hopen h, if_neg hout.1.symm, if_neg (hberths.1 .out), if_pos rfl]
  rw [engage_eq, lowestFree_same h, device?_silence hkept hsink, lowestFree_half hopen h,
    device?_half hopen h, muted, hdevice]
  grind

theorem wiring_engage (hsaved : console.saved = []) :
    console.engage.depth = console.depth ∧
      console.engage.sink = some original.berths.sink ∧
      console.engage.saved = original.berths.saved ∧
      console.engage.table.traffic = original.berths.openings ++ console.table.traffic := by
  have hsaved' : (console.sunk.silence original.berths.sink .out).saved =
      [(.out, original.berths.copy .out)] := by
    show console.flush.saved ++ [(Channel.out, console.sunk.table.lowestFree)] = _
    rw [saved_flush, hsaved, lowestFree_sunk h]
    rfl
  have htraffic : (console.sunk.silence original.berths.sink .out).table.traffic =
      [.opened (original.berths.copy .out), .opened original.berths.sink] ++
        console.table.traffic := by
    show Traffic.opened console.sunk.table.lowestFree :: .opened console.table.lowestFree ::
      console.table.traffic = _
    rw [lowestFree_sunk h, lowestFree_same h]
    rfl
  rw [engage_eq, lowestFree_same h]
  refine ⟨depth_flush console, ?_, ?_, ?_⟩
  · show some console.table.lowestFree = _
    rw [lowestFree_same h]
  · show (console.sunk.silence original.berths.sink .out).saved ++ [(Channel.err,
      (console.sunk.silence original.berths.sink .out).table.lowestFree)] = _
    rw [hsaved', lowestFree_half hopen h]
    rfl
  · show Traffic.opened (console.sunk.silence original.berths.sink .out).table.lowestFree ::
      (console.sunk.silence original.berths.sink .out).table.traffic = _
    rw [htraffic, lowestFree_half hopen h]
    rfl

end engage

/-! ## Silence ends -/

section disengage
variable (hopen : original.Open) (h : ∀ d, console.table.device? d = original.muted d)
  (hsink : console.sink = some original.berths.sink)
  (hsaved : console.saved = original.berths.saved)

include hsink hsaved

theorem disengage_eq :
    console.disengage =
      { (console.flush.restore (.err, original.berths.copy .err)).restore
          (.out, original.berths.copy .out) with
        table := ((console.flush.restore (.err, original.berths.copy .err)).restore
          (.out, original.berths.copy .out)).table.close original.berths.sink
        saved := []
        sink := none } := by
  unfold disengage
  simp only [saved_flush, sink_flush, hsaved, hsink]
  rfl

theorem wiring_disengage :
    console.disengage.depth = console.depth ∧ console.disengage.sink = none ∧
      console.disengage.saved = [] ∧
      console.disengage.table.traffic = original.berths.closings ++ console.table.traffic := by
  rw [disengage_eq hsink hsaved]
  refine ⟨?_, rfl, rfl, ?_⟩
  · dsimp only
    rw [depth_restore, depth_restore, depth_flush]
  · show Traffic.closed original.berths.sink :: .closed (original.berths.copy .out) ::
      .closed (original.berths.copy .err) :: console.flush.table.traffic = _
    rw [table_flush]
    rfl

include hopen h

theorem device?_disengage (d : Nat) :
    console.disengage.table.device? d = original.device? d := by
  obtain ⟨deviceOut, hdeviceOut⟩ := hopen .out
  obtain ⟨deviceErr, hdeviceErr⟩ := hopen .err
  have hout := hopen.descriptor_ne .out
  have herr := hopen.descriptor_ne .err
  have hberths := berths_ne original
  have hfree := device?_berths original
  have hne : Channel.err.descriptor ≠ Channel.out.descriptor := by decide
  have hflush (e : Nat) : console.flush.table.device? e = original.muted e := by
    rw [table_flush, h]
  have hfirst := device?_restore ((hflush _).trans (muted_channel original .err))
    ((hflush _).trans ((hopen.muted_copy .err).trans hdeviceErr)) (herr.2 .err).symm
  have hpresent := hfirst Channel.out.descriptor
  rw [if_neg (hout.2 .err), if_neg hne.symm, hflush, muted_channel] at hpresent
  have hcopy := hfirst (original.berths.copy .out)
  rw [if_neg hberths.2, if_neg (herr.2 .out).symm, hflush, hopen.muted_copy, hdeviceOut] at hcopy
  have hsecond := device?_restore hpresent hcopy (hout.2 .out).symm
  have hkept := hsecond original.berths.sink
  rw [if_neg (hberths.1 .out), if_neg hout.1.symm, hfirst, if_neg (hberths.1 .err),
    if_neg herr.1.symm, hflush, muted_sink] at hkept
  rw [disengage_eq hsink hsaved]
  dsimp only
  rw [device?_close hkept, hsecond, hfirst, hflush, muted, hdeviceOut, hdeviceErr]
  grind

end disengage

end Console

/-! ## Requests -/

/-- What so many periods of silence have left on the record. -/
def Descriptors.record (original : Descriptors) (periods : Nat) : List Traffic :=
  (List.replicate periods (original.berths.closings ++ original.berths.openings)).flatten ++
    original.traffic

theorem Descriptors.record_succ (original : Descriptors) (periods : Nat) :
    original.record (periods + 1) =
      (original.berths.closings ++ original.berths.openings) ++ original.record periods := by
  simp [record, List.replicate_succ]

/-- In order after so many periods of silence: unless silence is requested nothing is held and every
descriptor stands for what it stood for at first, and each period has closed what it opened. -/
inductive Wiring.InOrder (original : Descriptors) (periods : Nat) (w : Wiring) : Prop
  | loud (hdepth : w.depth = 0) (hsink : w.sink = none) (hsaved : w.saved = [])
      (hdevices : ∀ d, w.table.device? d = original.device? d)
      (htraffic : w.table.traffic = original.record periods) : InOrder original periods w
  | silent (hdepth : 0 < w.depth) (hsink : w.sink = some original.berths.sink)
      (hsaved : w.saved = original.berths.saved)
      (hdevices : ∀ d, w.table.device? d = original.muted d)
      (htraffic : w.table.traffic = original.berths.openings ++ original.record periods) :
      InOrder original periods w

namespace Console
open Descriptors
variable {console : Console} {original : Descriptors} {periods : Nat}

theorem acquire_of_loud (h : console.depth = 0) :
    console.acquire = { console.engage with depth := console.engage.depth + 1 } := by
  unfold acquire
  rw [if_pos h]

theorem acquire_of_silent (h : 0 < console.depth) :
    console.acquire = { console with depth := console.depth + 1 } := by
  unfold acquire
  rw [if_neg (Nat.ne_of_gt h)]

theorem release_of_last (h : console.depth = 1) :
    console.release = disengage { console with depth := 0 } := by
  unfold release
  simp only [h, Nat.sub_self, if_true]

theorem release_of_more (h : 1 < console.depth) :
    console.release = { console with depth := console.depth - 1 } := by
  have hmore : console.depth - 1 ≠ 0 := by omega
  unfold release
  simp only [hmore, if_false]

theorem inOrder_acquire (hopen : original.Open) (h : console.wiring.InOrder original periods) :
    console.acquire.wiring.InOrder original periods ∧
      console.acquire.depth = console.depth + 1 := by
  cases h with
  | loud hdepth hsink hsaved hdevices htraffic =>
    obtain ⟨hdepth', hsink', hsaved', htraffic'⟩ := wiring_engage hopen hdevices hsaved
    rw [acquire_of_loud hdepth]
    exact ⟨.silent (Nat.succ_pos _) hsink' hsaved' (device?_engage hopen hdevices)
      (htraffic'.trans (congrArg _ htraffic)), congrArg Nat.succ hdepth'⟩
  | silent hdepth hsink hsaved hdevices htraffic =>
    rw [acquire_of_silent hdepth]
    exact ⟨.silent (Nat.succ_pos _) hsink hsaved hdevices htraffic, rfl⟩

theorem inOrder_release (hopen : original.Open) (hdepth : 0 < console.depth)
    (h : console.wiring.InOrder original periods) :
    console.release.wiring.InOrder original (periods + if console.depth = 1 then 1 else 0) ∧
      console.release.depth + 1 = console.depth := by
  cases h with
  | loud hnone => exact absurd hnone (Nat.ne_of_gt hdepth)
  | silent _ hsink hsaved hdevices htraffic =>
    by_cases hlast : console.depth = 1
    · let last : Console := { console with depth := 0 }
      have hsink₀ : last.sink = some original.berths.sink := hsink
      have hsaved₀ : last.saved = original.berths.saved := hsaved
      have hdevices₀ (d : Nat) : last.table.device? d = original.muted d := hdevices d
      obtain ⟨hdepth', hsink', hsaved', htraffic'⟩ := wiring_disengage hsink₀ hsaved₀
      rw [release_of_last hlast, if_pos hlast]
      refine ⟨.loud hdepth' hsink' hsaved'
        (device?_disengage hopen hdevices₀ hsink₀ hsaved₀) ?_, ?_⟩
      · rw [record_succ, List.append_assoc]
        exact htraffic'.trans (congrArg _ htraffic)
      · rw [hdepth', hlast]
    · have hmore : 1 < console.depth := by omega
      rw [release_of_more hmore, if_neg hlast]
      exact ⟨.silent (Nat.sub_pos_of_lt hmore) hsink hsaved hdevices htraffic,
        Nat.sub_add_cancel hdepth⟩

end Console
end BlindArena
