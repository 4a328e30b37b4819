import BlindArena.Proofs.Terminal.Heard
import BlindArena.Transcript

/-!
# What an engine is heard to say

A transcript tells of the calls of an engine in the order they were made, each with what it wrote to
either channel. A console at rest comes to rest again after it. All of that is heard if it is loud;
if it is quiet, that is heard which is not written under a guard.
-/

namespace BlindArena

/-- The calls of an engine, all of which may write. -/
inductive Speech where
  | seeded | configure | start | step | snapshot
  deriving DecidableEq

/-- The call is made under a guard of silence when quiet. -/
def Speech.guarded : Speech → Bool
  | seeded | configure => false
  | start | step | snapshot => true

/-- What is written to a channel, as a terminal shows it. -/
def Output.shown (channel : Channel) : List Output → String
  | [] => ""
  | o :: rest => (if o.channel = channel then o.text else "") ++ shown channel rest

theorem Output.shown_append (channel : Channel) (output more : List Output) :
    shown channel (output ++ more) = shown channel output ++ shown channel more := by
  induction output with
  | nil => exact String.empty_append.symm
  | cons o output ih => simp only [List.cons_append, shown, ih, String.append_assoc]

/-- A call of an engine and what it writes. -/
structure Utterance where
  speech : Speech
  output : List Output
  deriving DecidableEq

namespace Utterance

def muffled (quiet : Bool) (u : Utterance) : Bool := u.speech.guarded && quiet

def written (quiet : Bool) (u : Utterance) : Transcript :=
  Transcript.silenced (u.muffled quiet) (Transcript.written u.output)

/-- What is not written under a guard. -/
def audible (quiet : Bool) (utterances : List Utterance) : List Output :=
  (utterances.filter (!·.muffled quiet)).flatMap (·.output)

theorem audible_cons (quiet : Bool) (u : Utterance) (rest : List Utterance) :
    audible quiet (u :: rest) =
      (if u.muffled quiet then [] else u.output) ++ audible quiet rest := by
  cases h : u.muffled quiet <;> simp [audible, h]

theorem audible_loud (utterances : List Utterance) :
    audible false utterances = utterances.flatMap (·.output) := by
  simp [audible, muffled]

theorem audible_quiet (utterances : List Utterance) :
    audible true utterances =
      (utterances.filter (!·.speech.guarded)).flatMap (·.output) := by
  simp [audible, muffled]

end Utterance

namespace Transcript

/-- The transcript tells of these calls, and it may take notes in between. -/
inductive Tells (quiet : Bool) : Transcript → List Utterance → Prop
  | nil : Tells quiet [] []
  | note (record : Record) {t : Transcript} {utterances : List Utterance}
      (later : Tells quiet t utterances) : Tells quiet (.note record :: t) utterances
  | utter (u : Utterance) {t : Transcript} {utterances : List Utterance}
      (later : Tells quiet t utterances) :
      Tells quiet (u.written quiet ++ t) (u :: utterances)

namespace Tells
variable {quiet : Bool} {t u : Transcript} {said more : List Utterance}

theorem append (h : Tells quiet t said) (hmore : Tells quiet u more) :
    Tells quiet (t ++ u) (said ++ more) := by
  induction h with
  | nil => exact hmore
  | note record _ ih => exact .note record ih
  | utter one _ ih =>
    rw [List.append_assoc]
    exact .utter one ih

theorem one (speech : Speech) (output : List Output) :
    Tells quiet (Utterance.written quiet ⟨speech, output⟩) [⟨speech, output⟩] := by
  have h : Tells quiet (Utterance.written quiet ⟨speech, output⟩ ++ []) [⟨speech, output⟩] :=
    .utter _ .nil
  rwa [List.append_nil] at h

theorem of_logs (h : t.actions = []) : Tells quiet t [] := by
  induction t with
  | nil => exact .nil
  | cons event t ih =>
    cases event with
    | act action => cases h
    | note record => exact .note record (ih h)

theorem append_logs (h : Tells quiet t said) (hlogs : u.actions = []) :
    Tells quiet (t ++ u) said := by
  have happended := h.append (of_logs hlogs)
  rwa [List.append_nil] at happended

theorem of_logs_append (hlogs : t.actions = []) (h : Tells quiet u said) :
    Tells quiet (t ++ u) said := (of_logs hlogs).append h

theorem flatMap {ι : Type} {f : ι → Transcript} {g : ι → List Utterance} {xs : List ι}
    (h : ∀ x ∈ xs, (f x).Tells quiet (g x)) : Tells quiet (xs.flatMap f) (xs.flatMap g) := by
  induction xs with
  | nil => exact .nil
  | cons x xs ih =>
    rw [List.forall_mem_cons] at h
    exact h.1.append (ih h.2)

end Tells

theorem records_flatMap {ι : Type} (f : ι → Transcript) (xs : List ι) (level : Level) :
    records (xs.flatMap f) level = xs.flatMap fun x => (f x).records level :=
  List.filterMap_flatMap

@[simp] theorem records_silenced (quiet : Bool) (t : Transcript) (level : Level) :
    (silenced quiet t).records level = t.records level := by
  cases quiet with
  | false => rfl
  | true => simp [silenced, records]

end Transcript

/-! ## On a console at rest -/

namespace Console

/-- Nothing is silenced or held, and both channels write to the terminal. -/
structure AtRest (console : Console) : Prop where
  depth : console.depth = 0
  sink : console.sink = none
  saved : console.saved = []
  attached : console.table.Attached

variable {console : Console}

namespace AtRest

theorem inOrder (h : console.AtRest) : console.wiring.InOrder console.table 0 :=
  .loud h.depth h.sink h.saved (fun _ => rfl) rfl

theorem of_inOrder {original : Descriptors} {periods : Nat} (hattached : original.Attached)
    (h : console.wiring.InOrder original periods) (hdepth : console.depth = 0) :
    console.AtRest := by
  cases h with
  | loud _ hsink hsaved hdevices _ =>
    exact ⟨hdepth, hsink, hsaved, fun channel => (hdevices _).trans (hattached channel)⟩
  | silent hpos => exact absurd hdepth (Nat.ne_of_gt hpos)

end AtRest

/-- Writing leaves the wiring as it is, and is heard unless silence is requested. -/
theorem run_output {original : Descriptors} {periods : Nat} (hattached : original.Attached)
    (h : console.wiring.InOrder original periods) (output : List Output) :
    let after := console.run (Transcript.written output).actions
    after.wiring = console.wiring ∧ ∀ channel, after.heard channel =
      console.heard channel ++ if console.depth = 0 then Output.shown channel output else "" := by
  induction output generalizing console with
  | nil =>
    refine ⟨rfl, fun channel => ?_⟩
    simp [Transcript.written, Transcript.actions, Output.shown]
  | cons o output ih =>
    have hwrite := wiring_write console o.channel o.text
    have hdepth : (console.write o.channel o.text).depth = console.depth :=
      congrArg Wiring.depth hwrite
    obtain ⟨hwiring, hheard⟩ := ih (hwrite ▸ h)
    refine ⟨hwiring.trans hwrite, fun channel => (hheard channel).trans ?_⟩
    rw [heard_write hattached h, hdepth, String.append_assoc]
    by_cases hloud : console.depth = 0
    · simp only [hloud, true_and, if_true, Output.shown]
    · simp only [hloud, false_and, if_false, String.append_empty]

theorem run_silenced (h : console.AtRest) (output : List Output) :
    let after := console.run (Transcript.silenced true (Transcript.written output)).actions
    after.AtRest ∧ ∀ channel, after.heard channel = console.heard channel := by
  have hattached := h.attached
  obtain ⟨hacquired, hdepth⟩ := inOrder_acquire hattached.open h.inOrder
  obtain ⟨hwiring, hheard⟩ := run_output hattached hacquired output
  generalize hheld : console.acquire.run (Transcript.written output).actions = held
    at hwiring hheard
  have hone : held.depth = 1 := by
    rw [show held.depth = console.acquire.depth from congrArg Wiring.depth hwiring, hdepth, h.depth]
  have hpos : 0 < held.depth := by omega
  obtain ⟨hreleased, hnone⟩ := inOrder_release hattached.open hpos (hwiring ▸ hacquired)
  have hrun : console.run (Transcript.silenced true (Transcript.written output)).actions =
      held.release := by
    have hactions : (Transcript.silenced true (Transcript.written output)).actions =
        .acquire :: ((Transcript.written output).actions ++ [.release]) := by
      simp [Transcript.silenced, Transcript.actions]
    rw [hactions, run_cons, run_append, act, hheld]
    rfl
  intro after
  have hafter : after = held.release := hrun
  rw [hafter]
  refine ⟨.of_inOrder hattached hreleased (by omega), fun channel => ?_⟩
  have hsilent : console.acquire.depth ≠ 0 := by omega
  calc held.release.heard channel
      = held.heard channel := heard_release hattached (hwiring ▸ hacquired) hpos channel
    _ = console.acquire.heard channel := by
        rw [hheard, if_neg hsilent, String.append_empty]
    _ = console.heard channel := heard_acquire hattached h.inOrder channel

theorem run_written (h : console.AtRest) (quiet : Bool) (u : Utterance) :
    let after := console.run (u.written quiet).actions
    after.AtRest ∧ ∀ channel, after.heard channel =
      console.heard channel ++ Output.shown channel (if u.muffled quiet then [] else u.output) := by
  unfold Utterance.written
  cases u.muffled quiet with
  | true =>
    obtain ⟨hrest, hheard⟩ := run_silenced h u.output
    exact ⟨hrest, fun channel => (hheard channel).trans String.append_empty.symm⟩
  | false =>
    obtain ⟨hwiring, hheard⟩ := run_output h.attached h.inOrder u.output
    refine ⟨.of_inOrder h.attached (hwiring ▸ h.inOrder) ?_, fun channel => ?_⟩
    · exact (congrArg Wiring.depth hwiring).trans h.depth
    · exact (hheard channel).trans (by rw [if_pos h.depth]; rfl)

/-- All of them: nothing stays silenced, and what is audible is heard. -/
theorem run_tells {quiet : Bool} {t : Transcript} {said : List Utterance} (h : console.AtRest)
    (htells : t.Tells quiet said) :
    let after := console.run t.actions
    after.AtRest ∧ ∀ channel, after.heard channel =
      console.heard channel ++ Output.shown channel (Utterance.audible quiet said) := by
  induction htells generalizing console with
  | nil => exact ⟨h, fun _ => String.append_empty.symm⟩
  | note record _ ih => exact ih h
  | utter u _ ih =>
    obtain ⟨hrest, hheard⟩ := run_written h quiet u
    obtain ⟨hrest', hheard'⟩ := ih hrest
    rw [Transcript.actions_append, run_append]
    refine ⟨hrest', fun channel => (hheard' channel).trans ?_⟩
    rw [hheard, Utterance.audible_cons, Output.shown_append, String.append_assoc]

end Console
end BlindArena
