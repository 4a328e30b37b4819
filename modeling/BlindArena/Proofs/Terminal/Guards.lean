import BlindArena.Proofs.Terminal.Heard
import BlindArena.Terminal.Silence

/-!
# Guards of silence are counted

Guards are acquired and dropped in any order, by whichever thread, and in between texts are written.
The requests that the console counts are at all times the guards that are alive, so silence begins
with the first of them and ends with the last. Each period closes what it opened, and nothing is
heard but what is written while no guard is alive.
-/

namespace BlindArena
namespace Silence
open Descriptors

inductive Call where
  | acquire
  | drop (guard : Nat)
  | write (channel : Channel) (text : String)
  | flush
  | interrupted (text : String)

namespace Call

def perform (s : Silence) : Call → Silence
  | acquire => s.acquire
  | drop guard => s.drop guard
  | write channel text => s.write channel text
  | flush => s.flush
  | interrupted text => s.interrupted text

/-- The periods of silence that a call ends: the last guard is dropped, or there was none. -/
def ended (s : Silence) : Call → Nat
  | drop guard => if s.live = [guard] then 1 else 0
  | interrupted _ => if s.live = [] then 1 else 0
  | acquire | write _ _ | flush => 0

/-- The text that a call writes to a channel while no guard is alive. -/
def audible (s : Silence) (channel : Channel) : Call → String
  | write written text => if s.live = [] ∧ written = channel then text else ""
  | acquire | drop _ | flush | interrupted _ => ""

end Call

def run (s : Silence) (calls : List Call) : Silence := calls.foldl Call.perform s

def periods (s : Silence) : List Call → Nat
  | [] => 0
  | call :: rest => call.ended s + periods (call.perform s) rest

def audible (s : Silence) (channel : Channel) : List Call → String
  | [] => ""
  | call :: rest => call.audible s channel ++ audible (call.perform s) channel rest

/-- Nothing is silenced and both channels are open. -/
structure AtRest (s : Silence) : Prop where
  live : s.live = []
  depth : s.console.depth = 0
  sink : s.console.sink = none
  saved : s.console.saved = []
  channels : s.console.table.Open

/-- The requests for silence are the guards that are alive, and the wiring is in order. -/
structure Counted (original : Descriptors) (periods : Nat) (s : Silence) : Prop where
  depth : s.console.depth = s.live.length
  nodup : s.live.Nodup
  fresh : ∀ guard ∈ s.live, guard < s.next
  wiring : s.console.wiring.InOrder original periods

variable {s : Silence} {original : Descriptors} {periods : Nat}

namespace Counted

theorem of_rest (h : s.AtRest) : s.Counted s.console.table 0 := by
  refine ⟨by rw [h.depth, h.live]; rfl, by simp [h.live], by simp [h.live], ?_⟩
  exact .loud h.depth h.sink h.saved (fun _ => rfl) rfl

theorem depth_eq_zero_iff (h : s.Counted original periods) :
    s.console.depth = 0 ↔ s.live = [] := by
  rw [h.depth, List.length_eq_zero_iff]

theorem depth_pos (h : s.Counted original periods) {guard : Nat} (hlive : guard ∈ s.live) :
    0 < s.console.depth := by
  rw [h.depth]
  exact List.length_pos_of_mem hlive

/-- The request that goes is the last one just when the guard is. -/
theorem depth_eq_one_iff (h : s.Counted original periods) {guard : Nat} (hlive : guard ∈ s.live) :
    s.console.depth = 1 ↔ s.live = [guard] := by
  rw [h.depth, List.length_eq_one_iff]
  constructor
  · rintro ⟨only, honly⟩
    rw [honly, List.mem_singleton] at hlive
    rw [honly, hlive]
  · intro honly
    exact ⟨guard, honly⟩

theorem acquire (hopen : original.Open) (h : s.Counted original periods) :
    s.acquire.Counted original periods := by
  obtain ⟨hwiring, hdepth⟩ := Console.inOrder_acquire hopen h.wiring
  have hnew : s.next ∉ s.live := fun hlive => Nat.lt_irrefl _ (h.fresh _ hlive)
  refine ⟨?_, List.nodup_cons.2 ⟨hnew, h.nodup⟩, ?_, hwiring⟩
  · show s.console.acquire.depth = s.live.length + 1
    rw [hdepth, h.depth]
  · intro guard hguard
    rcases List.mem_cons.1 hguard with rfl | hguard
    · exact Nat.lt_succ_self _
    · exact Nat.lt_succ_of_lt (h.fresh guard hguard)

theorem drop (hopen : original.Open) (h : s.Counted original periods) (guard : Nat) :
    (s.drop guard).Counted original (periods + if s.live = [guard] then 1 else 0) := by
  by_cases hlive : guard ∈ s.live
  · obtain ⟨hwiring, hdepth⟩ := Console.inOrder_release hopen (h.depth_pos hlive) h.wiring
    rw [if_congr (h.depth_eq_one_iff hlive) rfl rfl] at hwiring
    rw [Silence.drop, if_pos hlive]
    refine ⟨?_, h.nodup.erase guard, fun other hother => ?_, hwiring⟩
    · have hlength := List.length_erase_of_mem hlive
      have hcount := h.depth
      dsimp only
      omega
    · exact h.fresh other (List.mem_of_mem_erase hother)
  · have hnot : s.live ≠ [guard] := fun honly => hlive (honly ▸ List.mem_singleton_self guard)
    rw [Silence.drop, if_neg hlive, if_neg hnot]
    exact h

theorem depth_drop (hopen : original.Open) (h : s.Counted original periods) {guard : Nat}
    (hlive : guard ∈ s.live) : (s.drop guard).console.depth + 1 = s.console.depth := by
  have hrelease := (Console.inOrder_release hopen (h.depth_pos hlive) h.wiring).2
  rw [Silence.drop, if_pos hlive]
  exact hrelease

theorem write (h : s.Counted original periods) (channel : Channel) (text : String) :
    (s.write channel text).Counted original periods := by
  have hwiring := Console.wiring_write s.console channel text
  exact ⟨(congrArg Wiring.depth hwiring).trans h.depth, h.nodup, h.fresh, hwiring ▸ h.wiring⟩

theorem flush (h : s.Counted original periods) : s.flush.Counted original periods := by
  have hwiring := Console.wiring_flush s.console
  exact ⟨(congrArg Wiring.depth hwiring).trans h.depth, h.nodup, h.fresh, hwiring ▸ h.wiring⟩

theorem held (hopen : original.Open) (h : s.Counted original periods) (text : String) :
    let held := s.console.acquire.write .out text
    held.wiring.InOrder original periods ∧ held.depth = s.console.depth + 1 ∧
      (held.depth = 1 ↔ s.live = []) := by
  intro held
  obtain ⟨hacquired, hdepth⟩ := Console.inOrder_acquire hopen h.wiring
  have hwrite : held.wiring = s.console.acquire.wiring := Console.wiring_write _ .out text
  have hheld : held.depth = s.console.depth + 1 :=
    (congrArg Wiring.depth hwrite).trans hdepth
  refine ⟨hwrite ▸ hacquired, hheld, ?_⟩
  rw [hheld, ← h.depth_eq_zero_iff]
  omega

theorem interrupted (hopen : original.Open) (h : s.Counted original periods) (text : String) :
    (s.interrupted text).Counted original (periods + if s.live = [] then 1 else 0) := by
  obtain ⟨hheld, hdepth, hlast⟩ := h.held hopen text
  obtain ⟨hwiring, hrelease⟩ := Console.inOrder_release hopen (by omega) hheld
  rw [if_congr hlast rfl rfl] at hwiring
  refine ⟨?_, h.nodup, h.fresh, hwiring⟩
  have hcount := h.depth
  show (s.console.acquire.write .out text).release.depth = s.live.length
  omega

theorem perform (hopen : original.Open) (h : s.Counted original periods) (call : Call) :
    (call.perform s).Counted original (periods + call.ended s) := by
  cases call with
  | acquire => exact h.acquire hopen
  | drop guard => exact h.drop hopen guard
  | write channel text => exact h.write channel text
  | flush => exact h.flush
  | interrupted text => exact h.interrupted hopen text

theorem run (hopen : original.Open) (h : s.Counted original periods) (calls : List Call) :
    (s.run calls).Counted original (periods + s.periods calls) := by
  induction calls generalizing s periods with
  | nil => exact h
  | cons call rest ih =>
    have hrest := ih (h.perform hopen call)
    rw [Nat.add_assoc] at hrest
    exact hrest

theorem heard_perform (hattached : original.Attached) (h : s.Counted original periods)
    (call : Call) (channel : Channel) :
    (call.perform s).console.heard channel =
      s.console.heard channel ++ call.audible s channel := by
  have hopen := hattached.open
  cases call with
  | acquire =>
    exact (Console.heard_acquire hattached h.wiring channel).trans String.append_empty.symm
  | drop guard =>
    refine Eq.trans ?_ String.append_empty.symm
    rw [Call.perform, Silence.drop]
    by_cases hlive : guard ∈ s.live
    · rw [if_pos hlive]
      exact Console.heard_release hattached h.wiring (h.depth_pos hlive) channel
    · rw [if_neg hlive]
  | write written text =>
    have hheard := Console.heard_write hattached h.wiring written channel text
    simp only [h.depth_eq_zero_iff] at hheard
    exact hheard
  | flush =>
    exact (Console.heard_flush hattached h.wiring channel).trans String.append_empty.symm
  | interrupted text =>
    -- the text is written between a request for silence and its release, so it is not heard
    obtain ⟨hwiring, hacquired⟩ := Console.inOrder_acquire hopen h.wiring
    obtain ⟨hheld, hdepth, -⟩ := h.held hopen text
    have hwritten := Console.heard_write hattached hwiring .out channel text
    have hsilent : ¬(s.console.acquire.depth = 0 ∧ Channel.out = channel) := by omega
    rw [if_neg hsilent, String.append_empty] at hwritten
    refine Eq.trans ?_ String.append_empty.symm
    calc (s.console.acquire.write .out text).release.heard channel
        = (s.console.acquire.write .out text).heard channel :=
          Console.heard_release hattached hheld (by omega) channel
      _ = s.console.acquire.heard channel := hwritten
      _ = s.console.heard channel := Console.heard_acquire hattached h.wiring channel

theorem heard_run (hattached : original.Attached) (h : s.Counted original periods)
    (calls : List Call) (channel : Channel) :
    (s.run calls).console.heard channel = s.console.heard channel ++ s.audible channel calls := by
  induction calls generalizing s periods with
  | nil => exact String.append_empty.symm
  | cons call rest ih =>
    have hrest := ih (h.perform hattached.open call)
    rw [h.heard_perform hattached, String.append_assoc] at hrest
    exact hrest

/-- A line that is not ended waits inside while a guard is alive. -/
theorem heard_out (hattached : original.Attached) (h : s.Counted original periods) :
    s.console.heard .out =
      s.console.shownOut ++ if s.console.depth = 0 then s.console.pending else "" := by
  obtain ⟨hdepth, hloud⟩ | ⟨hdepth, hquiet⟩ := Console.attached_or_quiet hattached h.wiring
  · rw [if_pos hdepth, Console.heard_out_of_attached hloud]
  · rw [if_neg (Nat.ne_of_gt hdepth), Console.heard_out_of_quiet hquiet, String.append_empty]

end Counted

/-- Whatever order guards are acquired and dropped in and whatever is written in between, the
requests for silence are the guards that are alive. A sink and the two originals are held, and both
channels redirected, just while there are any; and every period of silence closes what it has
opened, each descriptor once. A text is heard just when no guard is alive as it is written. -/
theorem silence_counted (hrest : s.AtRest) (calls : List Call) :
    let original := s.console.table
    let berths := original.berths
    let t := s.run calls
    t.console.depth = t.live.length ∧
    (∀ guard ∈ t.live, (t.drop guard).console.depth + 1 = t.console.depth) ∧
    (berths.places.Nodup ∧ ∀ place ∈ berths.places, original.device? place = none) ∧
    t.console.sink = (if t.console.depth = 0 then none else some berths.sink) ∧
    t.console.saved =
      (if t.console.depth = 0 then [] else [(.out, berths.copy .out), (.err, berths.copy .err)]) ∧
    (∀ channel : Channel,
      t.console.table.device? channel.descriptor =
        (if t.console.depth = 0 then original.device? channel.descriptor else some .sink) ∧
      t.console.table.device? (berths.copy channel) =
        if t.console.depth = 0 then none else original.device? channel.descriptor) ∧
    (∀ d, t.console.depth = 0 → t.console.table.device? d = original.device? d) ∧
    t.console.table.traffic =
      (if t.console.depth = 0 then [] else berths.openings) ++
        (List.replicate (s.periods calls) (berths.closings ++ berths.openings)).flatten ++
          original.traffic ∧
    (original.Attached →
      (∀ channel, t.console.heard channel =
        s.console.heard channel ++ s.audible channel calls) ∧
      t.console.heard .out =
        t.console.shownOut ++ if t.console.depth = 0 then t.console.pending else "") := by
  intro original berths t
  have hcounted : t.Counted original (s.periods calls) := by
    have hrun := (Counted.of_rest hrest).run hrest.channels calls
    rwa [Nat.zero_add] at hrun
  have hheard (hattached : original.Attached) :=
    And.intro ((Counted.of_rest hrest).heard_run hattached calls) (hcounted.heard_out hattached)
  refine ⟨hcounted.depth, fun guard => hcounted.depth_drop hrest.channels,
    berths_free original, ?_⟩
  cases hcounted.wiring with
  | loud hdepth hsink hsaved hdevices htraffic =>
    have hidle : t.console.depth = 0 := hdepth
    simp only [hidle, if_true, List.nil_append]
    refine ⟨hsink, hsaved, fun channel => ⟨hdevices _, ?_⟩, fun d _ => hdevices d, htraffic, ?_⟩
    · exact (hdevices _).trans ((device?_berths original).2 channel)
    · simpa only [hidle, if_true] using hheard
  | silent hdepth hsink hsaved hdevices htraffic =>
    have hbusy : t.console.depth ≠ 0 := Nat.ne_of_gt hdepth
    simp only [hbusy, if_false, false_implies, implies_true, true_and]
    refine ⟨hsink, hsaved, fun channel => ⟨?_, ?_⟩, ?_, ?_⟩
    · exact (hdevices _).trans (muted_channel original channel)
    · exact (hdevices _).trans (hrest.channels.muted_copy channel)
    · rw [List.append_assoc]
      exact htraffic
    · simpa only [hbusy, if_false] using hheard

def crossing : List Call :=
  [.write .out "a", .acquire, .acquire, .write .out "b\n", .drop 0, .write .err "c", .drop 1,
    .write .out "d\n", .interrupted "e"]

theorem silence_counted_of_crossing :
    ({} : Silence).AtRest ∧ ({} : Silence).console.table.Attached ∧
      (({} : Silence).run crossing).console.sink = none ∧
      (({} : Silence).run crossing).console.table.traffic =
        [.closed 3, .closed 4, .closed 5, .opened 5, .opened 4, .opened 3,
          .closed 3, .closed 4, .closed 5, .opened 5, .opened 4, .opened 3] ∧
      (({} : Silence).run crossing).console.heard .out = "ad\n" ∧
      (({} : Silence).run crossing).console.heard .err = "" := by
  have hattached : ({} : Silence).console.table.Attached := fun channel => by cases channel <;> rfl
  have hrest : ({} : Silence).AtRest := ⟨rfl, rfl, rfl, rfl, hattached.open⟩
  have hlive : (({} : Silence).run crossing).live = [] := rfl
  obtain ⟨hdepth, -, -, hsink, -, -, -, htraffic, hheard⟩ := silence_counted hrest crossing
  rw [hlive, List.length_nil] at hdepth
  have hperiods : ({} : Silence).periods crossing = 2 := rfl
  have hclosings : ({} : Silence).console.table.berths.closings =
    [.closed 3, .closed 4, .closed 5] := rfl
  have hopenings : ({} : Silence).console.table.berths.openings =
    [.opened 5, .opened 4, .opened 3] := rfl
  refine ⟨hrest, hattached, hsink.trans (if_pos hdepth), ?_, ?_, ?_⟩
  · rw [htraffic, if_pos hdepth, hperiods, hclosings, hopenings]
    rfl
  · rw [(hheard hattached).1]
    rfl
  · rw [(hheard hattached).1]
    rfl

end Silence
end BlindArena
