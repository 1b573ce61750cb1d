import AccessControl.Proofs.Absence.Expression
import AccessControl.Proofs.Eager.Policy

namespace AccessControl

open Cache (InStep)

variable {ctx ctx' : Context}

theorem holdsIfPresent_inStep (akin : ctx.Akin ctx') (e : Option Expression) :
    InStep Akin (holdsIfPresent ctx e) (holdsIfPresent ctx' e) := by
  cases e with
  | none => exact .skip (.ok true)
  | some e => exact (e.value_inStep akin).map _ _ fun _ _ values => values.bind AttributeValue.truth

theorem Rule.outcome_akin (r : Rule) {b b' : Except Reason Bool} (akin : Akin b b') :
    (r.outcome b).Related Reason.Akin (r.outcome b') := by
  cases akin with
  | ok b => exact .refl .same _
  | error reasons => exact .indeterminate _ reasons

theorem Rule.evaluate_inStep (akin : ctx.Akin ctx') (r : Rule) :
    InStep (Outcome.Related Reason.Akin) (r.evaluate ctx) (r.evaluate ctx') := by
  rw [r.evaluate_eq, r.evaluate_eq]
  refine InStep.map ((holdsIfPresent_inStep akin r.target).bind fun b => ?_) _ _ fun _ _ => r.outcome_akin
  cases b with
  | false => exact .skip (.ok false)
  | true => exact holdsIfPresent_inStep akin r.condition

namespace Policy

theorem targetFailure_akin (p : Policy) {r r' : Reason} (reasons : r.Akin r') :
    (targetFailure p r).Related Reason.Akin (targetFailure p r') := by
  unfold targetFailure
  cases p.possibleEffects with
  | none => exact .notApplicable
  | some x => exact .indeterminate x reasons

theorem evaluateChildren_inStep (a : Algorithm) (ps : List Policy)
    (each : ∀ p ∈ ps, InStep (Outcome.Related Reason.Akin) (p.evaluate ctx) (p.evaluate ctx')) :
    InStep (List.Forall₂ (Outcome.Related Reason.Akin)) (evaluateChildren ctx a ps)
      (evaluateChildren ctx' a ps) := by
  induction ps with
  | nil => exact .skip .nil
  | cons p ps ih =>
    obtain ⟨head, tail⟩ := List.forall_mem_cons.mp each
    rw [evaluateChildren_cons, evaluateChildren_cons]
    refine head.andThen fun o o' related => ?_
    rw [related.decision.settles a]
    cases a.settles o'.decision with
    | true => exact .skip (.cons related .nil)
    | false => exact (ih tail).map _ _ fun _ _ others => .cons related others

theorem evaluate_inStep (akin : ctx.Akin ctx') (p : Policy) :
    InStep (Outcome.Related Reason.Akin) (p.evaluate ctx) (p.evaluate ctx') := by
  induction p with
  | rule r => exact (r.evaluate_inStep akin).visit
  | set h ps each =>
    have children := evaluateChildren_inStep h.algorithm ps each
    let combined (os : List Outcome) : Outcome := h.addObligations (h.algorithm.reduce h.id os)
    have reached := children.map combined combined fun os os' related => by
      simp only [combined, h.algorithm.reduce_eq_table]
      exact (Algorithm.table_related .same h.algorithm h.id related).addObligations h
    rw [funext (evaluate_set ctx h ps), funext (evaluate_set ctx' h ps)]
    refine InStep.visit ((holdsIfPresent_inStep akin h.target).andThen fun b b' targets => ?_)
    cases targets with
    | error reasons => exact .skip (targetFailure_akin _ reasons)
    | ok b =>
      cases b with
      | false => exact .skip .notApplicable
      | true => exact reached

end Policy

namespace Obligation

theorem assign_inStep (akin : ctx.Akin ctx') (as : List AssignmentRule) :
    InStep Akin (assign ctx as) (assign ctx' as) := by
  induction as with
  | nil => exact .skip (.ok [])
  | cons a as ih =>
    rw [assign_cons, assign_cons]
    exact (a.value.value_inStep akin).bind fun v => ih.bind fun rest => .skip (.ok (⟨a.name, v⟩ :: rest))

theorem blame_akin (o : Obligation) {α : Type} {x x' : Except Reason α} (akin : Akin x x') :
    Akin (o.blame x) (o.blame x') := by
  cases akin with
  | ok a => exact .ok a
  | error reasons => exact .error (.obligation o.id reasons)

theorem fulfill_inStep (akin : ctx.Akin ctx') (os : List Obligation) :
    InStep Akin (fulfill ctx os) (fulfill ctx' os) := by
  induction os with
  | nil => exact .skip (.ok [])
  | cons o os ih =>
    rw [fulfill_cons, fulfill_cons]
    have head := (assign_inStep akin o.assignments).map o.blame o.blame fun _ _ => o.blame_akin
    exact head.bind fun as => ih.bind fun rest => .skip (.ok (⟨o.id, as⟩ :: rest))

end Obligation

namespace Outcome

theorem answer_akin {o o' : Outcome} (related : o.Related Reason.Akin o') (e : Effect)
    {x x' : Except Reason (List FulfilledObligation)} (akin : Akin x x') :
    (o.answer e x).Related Reason.Akin (o'.answer e x') := by
  cases akin with
  | ok os => exact ⟨related.decision, rfl⟩
  | error reasons => exact ⟨.indeterminate _ reasons, rfl⟩

theorem respond_inStep (akin : ctx.Akin ctx') {o o' : Outcome} (related : o.Related Reason.Akin o') :
    InStep (Response.Related Reason.Akin) (o.respond ctx) (o'.respond ctx') := by
  have effects := related.decision.effect?
  cases decided : o.decision.effect? with
  | none =>
    rw [funext (respond_bare ctx decided), funext (respond_bare ctx' (effects ▸ decided))]
    exact .skip ⟨related.decision, rfl⟩
  | some e =>
    rw [funext (respond_effect ctx decided), funext (respond_effect ctx' (effects ▸ decided)),
      ← related.obligations]
    exact (Obligation.fulfill_inStep akin o.obligations).map _ _ fun _ _ => answer_akin related e

end Outcome

/-- Whether a resolver fails or knows no value shows in nothing but the reason of a failure. -/
theorem Policy.respond_interchanged (r : Request) (f g : Resolver)
    (interchanged : ∀ calls a, Interchanged (f r calls a) (g r calls a)) (p : Policy) :
    (p.respond ⟨r, f⟩).1.Related Reason.Akin (p.respond ⟨r, g⟩).1 ∧
      (p.respond ⟨r, f⟩).2.stats = (p.respond ⟨r, g⟩).2.stats ∧
      (p.respond ⟨r, f⟩).2.calls = (p.respond ⟨r, g⟩).2.calls := by
  have akin : Context.Akin ⟨r, f⟩ ⟨r, g⟩ := ⟨rfl, interchanged⟩
  obtain ⟨outcomes, caches⟩ := p.evaluate_inStep akin .empty .empty ⟨.nil, rfl, rfl⟩
  obtain ⟨responses, after⟩ := Outcome.respond_inStep akin outcomes _ _ caches
  exact ⟨responses, after.stats, after.calls⟩

theorem Policy.respond_interchanged_log :
    let owner : AttributeId := ⟨.subject, "owner", .string, .single⟩
    let locked : AttributeId := ⟨.resource, "locked", .boolean, .single⟩
    let log : Obligation := ⟨"log", .permit, [⟨"owner", .ref owner⟩]⟩
    let unlocked : Expression := .not (.call .isPresent [.ref locked])
    let p : Policy := .set ⟨"documents", none, .denyOverrides, [log]⟩
      [.rule ⟨"reader", none, some unlocked, .permit, []⟩]
    let request : Request := ⟨"alice", "view", "doc123", ⟨2024, 1, 1, 0, 0, 0, 0, by decide⟩, []⟩
    let offline (a b : AttributeId) : Except ResolverError (Option AttributeValue) :=
      if a = b then .error (.unavailable "offline") else .ok none
    let f : Resolver := .ofFunction (offline owner)
    let g : Resolver := .ofFunction (offline locked)
    (∀ calls a, Interchanged (f request calls a) (g request calls a)) ∧
      (p.respond ⟨request, f⟩).1.Related Reason.Akin (p.respond ⟨request, g⟩).1 ∧
      (p.respond ⟨request, f⟩).1.decision = .indeterminate .permit (.obligationFailed "log"
        (.resolverFailure "subject.owner" "attribute source unavailable: offline")) ∧
      (p.respond ⟨request, g⟩).1.decision = .indeterminate .permit (.obligationFailed "log"
        (.missingAttribute "subject.owner")) ∧
      (p.respond ⟨request, f⟩).2.calls = (p.respond ⟨request, g⟩).2.calls ∧
      (p.respond ⟨request, f⟩).2.calls = [locked, owner] := by
  intro owner locked log unlocked p request offline f g
  have interchanged (calls : List AttributeId) (a : AttributeId) :
      Interchanged (f request calls a) (g request calls a) := by
    simp only [f, g, Resolver.ofFunction, offline]
    by_cases atOwner : owner = a
    · subst atOwner
      exact .missing _
    · rw [if_neg atOwner]
      split
      · exact .failed _
      · exact .same _
  obtain ⟨related, -, calls⟩ := respond_interchanged request f g interchanged p
  exact ⟨interchanged, related, rfl, rfl, calls, rfl⟩

end AccessControl
