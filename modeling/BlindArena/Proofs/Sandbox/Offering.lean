import BlindArena.Proofs.Sandbox.Choices
import BlindArena.Proofs.Sandbox.Earnings

/-!
# An episode always offers something

The sandbox offers nothing while a pack is open and when a run is over. An episode ends with its
blind, before there is a shop to buy packs in, and it ends with the run. So as long as it goes on,
the tracker holds the choices of the sandbox and there are some.
-/

namespace BlindArena
namespace Sandbox
variable {env : Env Sandbox} {s : Sandbox}

theorem legal_decision_ne_nil (hopen : s.outcome = none) (hphase : s.phase ≠ .shopPackSelection) :
    s.decision.legal ≠ [] := by
  rw [legal_decision hopen, Ne, List.map_eq_nil_iff]
  exact choices_ne_nil hphase

/-- No pack is open in an episode. -/
theorem Stands.phase_ne_pack {t : Tracker} {total : Int} (h : Stands t s total) :
    s.phase ≠ .shopPackSelection := by
  cases h with
  | selecting hphase => simp [hphase]
  | running hr => simp [hr.phase]
  | lost hphase => simp [hphase]

/-- An episode that is under way, with the choices of the sandbox in the tracker. -/
def Offering (env : Env Sandbox) : Prop :=
  ∃ s total, Underway env s total ∧ env.tracker.legal = s.decision.legal

theorem Offering.legal_ne_nil (h : Offering env) : env.tracker.legal ≠ [] := by
  obtain ⟨s, total, hunderway, hlegal⟩ := h
  rw [hlegal]
  exact legal_decision_ne_nil hunderway.goes hunderway.counts.stands.phase_ne_pack

theorem offering_reset (env : Env Sandbox) (seed : Option UInt64) :
    Offering (env.reset engine seed).state := by
  obtain ⟨s, hunderway⟩ := underway_reset env seed
  obtain ⟨quiet, hsession⟩ := hunderway.session
  refine ⟨s, 0, hunderway, ?_⟩
  have hengine : (env.reset engine seed).state.session.map (·.engine.decision.legal) =
      some (env.reset engine seed).state.tracker.legal := rfl
  rw [hsession] at hengine
  exact (Option.some.inj hengine).symm

theorem Offering.step (h : Offering env) {action : Index}
    {reply : Reply (Env Sandbox) (Except Failure Transition)} {transition : Transition}
    (hstep : env.step engine action = .ok reply) (hanswer : reply.answer = .ok transition)
    (hgoes : transition.terminated = false) : Offering reply.state := by
  obtain ⟨s, total, hunderway, -⟩ := h
  obtain ⟨reply', s', hstep', -, hnext⟩ := hunderway.step action
  obtain rfl := Except.ok.inj (hstep'.symm.trans hstep)
  have hending : transition.ending = none := by simpa [Transition.terminated] using hgoes
  have hlater := hnext (by simpa [Env.Entry.ending, hanswer] using hending)
  refine ⟨s', _, hlater, ?_⟩
  obtain ⟨quiet, hsession⟩ := hlater.session
  obtain ⟨session, report, turn, -, hreport, hturn, -, hstate⟩ := Env.step_ok_elim hstep hanswer
  rw [hstate] at hsession ⊢
  have hdecision : report = (Session.advance engine session
      (Resolution.resolve action env.tracker.legal).effective).state.engine.decision :=
    (Except.ok.inj hreport).symm
  rw [Tracker.legal_of_turn hturn, hdecision, Option.some.inj hsession]

end Sandbox
end BlindArena
