import BlindArena.Deck
import BlindArena.Report
import BlindArena.Snapshot
import BlindArena.Stake
import BlindArena.Terminal.Descriptors

/-!
# Engines

An engine is a machine over states of some type. It is parked at a decision point, reports it when
probed, and advances when given the index of a choice. Each call may write to either channel and
most may fail with a reason; a failing call still says what state it leaves. Score and money can be
read back if the engine offers it.
-/

namespace BlindArena

/-- What a call gives and what it writes. -/
structure Spoken (α : Type) where
  value : α
  output : List Output := []

structure Engine (σ : Type) where
  /-- A fresh engine. -/
  seeded : UInt64 → Spoken (Except String σ)
  /-- Deck and stake are chosen before the start. -/
  configure : σ → Deck → Stake → Spoken σ
  start : σ → Spoken (Except String Unit × σ)
  /-- Without a choice the decision point is only reported. -/
  step : σ → Option Index → Spoken (Except String Report × σ)
  snapshot : σ → Spoken (Except String Snapshot) :=
    fun _ => ⟨.error "engine does not expose snapshots", []⟩

end BlindArena
