import BlindArena.Agent
import BlindArena.Amount
import BlindArena.CommandLine.Arguments
import BlindArena.CommandLine.Run
import BlindArena.Decimal.Dyadic
import BlindArena.Decimal.Numeral
import BlindArena.Decimal.Places
import BlindArena.Decimal.Shortest
import BlindArena.Deck
import BlindArena.Ending
import BlindArena.Engine
import BlindArena.Enumeration
import BlindArena.Env.Basic
import BlindArena.Env.Config
import BlindArena.Env.Fleet
import BlindArena.Env.Lemmas
import BlindArena.Env.Parallel
import BlindArena.Env.Transition
import BlindArena.Env.View
import BlindArena.Failure
import BlindArena.Json.Field
import BlindArena.Json.Reader
import BlindArena.Json.Token
import BlindArena.Json.Value
import BlindArena.Main
import BlindArena.Mask
import BlindArena.Observation
import BlindArena.Paint
import BlindArena.Phase
import BlindArena.Proofs.Env.Alike
import BlindArena.Proofs.Env.Books
import BlindArena.Proofs.Env.Control
import BlindArena.Proofs.Env.Moments
import BlindArena.Proofs.Env.Offers
import BlindArena.Proofs.Env.Quiet
import BlindArena.Proofs.Env.Runs
import BlindArena.Proofs.Env.Trails
import BlindArena.Proofs.Fleet.Closings
import BlindArena.Proofs.Fleet.Labels
import BlindArena.Proofs.Fleet.Moments
import BlindArena.Proofs.History
import BlindArena.Proofs.Json.Lexemes
import BlindArena.Proofs.Json.Reading
import BlindArena.Proofs.Json.Spelling
import BlindArena.Proofs.Json.Writing
import BlindArena.Proofs.Observation.Features
import BlindArena.Proofs.Observation.Marks
import BlindArena.Proofs.Rollout.Batch
import BlindArena.Proofs.Rollout.Bonuses
import BlindArena.Proofs.Rollout.Calls
import BlindArena.Proofs.Rollout.Course
import BlindArena.Proofs.Rollout.Merge
import BlindArena.Proofs.Rollout.Passes
import BlindArena.Proofs.Rollout.Quota
import BlindArena.Proofs.Rollout.Rounds
import BlindArena.Proofs.Rollout.Seeds
import BlindArena.Proofs.Rollout.Shown
import BlindArena.Proofs.Rollout.Single
import BlindArena.Proofs.Rollout.Solo
import BlindArena.Proofs.Rollout.Tame
import BlindArena.Proofs.Rollout.Ways
import BlindArena.Proofs.Sandbox.Blinds
import BlindArena.Proofs.Sandbox.Bounds
import BlindArena.Proofs.Sandbox.Cards
import BlindArena.Proofs.Sandbox.Choices
import BlindArena.Proofs.Sandbox.Earnings
import BlindArena.Proofs.Sandbox.Environment
import BlindArena.Proofs.Sandbox.Machine
import BlindArena.Proofs.Sandbox.Moves
import BlindArena.Proofs.Sandbox.Offering
import BlindArena.Proofs.Terminal.Guards
import BlindArena.Proofs.Terminal.Heard
import BlindArena.Proofs.Terminal.Table
import BlindArena.Proofs.Terminal.Utterances
import BlindArena.Proofs.Terminal.Wiring
import BlindArena.Proofs.Tracker.Blind
import BlindArena.Proofs.Tracker.Bonus
import BlindArena.Proofs.Tracker.Bounded
import BlindArena.Proofs.Tracker.Control
import BlindArena.Proofs.Tracker.Follow
import BlindArena.Proofs.Tracker.Lapses
import BlindArena.Proofs.Tracker.Lifecycle
import BlindArena.Proofs.Tracker.Pay
import BlindArena.Proofs.Tracker.Provenance
import BlindArena.Proofs.Tracker.Turns
import BlindArena.Proofs.Tracker.Within
import BlindArena.Proofs.Wire.RoundTrip
import BlindArena.Proofs.Wire.Settings
import BlindArena.Random.Generator
import BlindArena.Random.Range
import BlindArena.Replay
import BlindArena.Report
import BlindArena.Resolution
import BlindArena.Reward
import BlindArena.Rollout.Batch
import BlindArena.Rollout.Episode
import BlindArena.Rollout.Summary
import BlindArena.Sandbox.Basic
import BlindArena.Sandbox.Rules
import BlindArena.Session
import BlindArena.Snapshot
import BlindArena.Stake
import BlindArena.Status
import BlindArena.Terminal.Console
import BlindArena.Terminal.Descriptors
import BlindArena.Terminal.Silence
import BlindArena.Text
import BlindArena.Tracker.Baseline
import BlindArena.Tracker.Basic
import BlindArena.Tracker.Lemmas
import BlindArena.Transcript
import BlindArena.Turn
import BlindArena.Wire.Config
import BlindArena.Wire.Report
import BlindArena.Wire.Transition
