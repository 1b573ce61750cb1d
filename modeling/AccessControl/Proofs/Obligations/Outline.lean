import AccessControl.Proofs.Eager.Policy

namespace AccessControl

namespace Obligation

/-- The obligation without its assignments. -/
def outline (o : Obligation) : Obligation where
  id := o.id
  fulfillOn := o.fulfillOn
  assignments := []

theorem forEffect_outline (os : List Obligation) (e : Effect) :
    forEffect (os.map outline) e = (forEffect os e).map outline := by
  rw [forEffect, List.filter_map]
  rfl

end Obligation

namespace Outcome

def outline (o : Outcome) : Outcome where
  decision := o.decision
  obligations := o.obligations.map Obligation.outline

theorem obligations_outline (os : List Outcome) :
    (os.map outline).flatMap obligations = (os.flatMap obligations).map Obligation.outline := by
  rw [List.flatMap_map, List.map_flatMap]
  rfl

end Outcome

namespace Algorithm

theorem decided_outline (e : Effect) (os : List Outcome) :
    (os.map Outcome.outline).filter (Outcome.decides e) =
      (os.filter (Outcome.decides e)).map Outcome.outline := by
  rw [List.filter_map]
  rfl

theorem leaning_outline (x : Extent) (os : List Outcome) :
    (os.map Outcome.outline).filterMap (Outcome.leaning? x) = os.filterMap (Outcome.leaning? x) := by
  rw [List.filterMap_map]
  rfl

theorem applicable_outline (os : List Outcome) :
    applicable (os.map Outcome.outline) = (applicable os).map Outcome.outline := by
  rw [applicable, List.filter_map]
  rfl

theorem extents_outline (os : List Outcome) :
    (os.map Outcome.outline).filterMap (fun o => o.decision.extent?) =
      os.filterMap fun o => o.decision.extent? := by
  rw [List.filterMap_map]
  rfl

theorem overridesRow_outline (winner : Effect) (won lost : List Outcome)
    (both towardsWinner towardsLoser : List Reason) :
    overridesRow winner (won.map Outcome.outline) both towardsWinner (lost.map Outcome.outline) towardsLoser =
      (overridesRow winner won both towardsWinner lost towardsLoser).outline := by
  have lists (os : List Outcome) := Outcome.obligations_outline os
  cases won with
  | cons o rest => rfl
  | nil =>
    cases both with
    | cons r rest => rfl
    | nil =>
      cases towardsWinner with
      | cons r rest => cases lost <;> cases towardsLoser <;> rfl
      | nil =>
        cases lost with
        | cons o rest => exact congrArg (Outcome.mk _) (lists (o :: rest))
        | nil => cases towardsLoser <;> rfl

theorem overridesTable_outline (winner : Effect) (os : List Outcome) :
    overridesTable winner (os.map Outcome.outline) = (overridesTable winner os).outline := by
  unfold overridesTable
  rw [decided_outline, decided_outline, leaning_outline, leaning_outline, leaning_outline,
    overridesRow_outline]

theorem firstTable_outline (os : List Outcome) :
    firstTable (os.map Outcome.outline) = (firstTable os).outline := by
  unfold firstTable
  rw [applicable_outline]
  cases applicable os <;> rfl

theorem onlyOneTable_outline (id : String) (os : List Outcome) :
    onlyOneTable id (os.map Outcome.outline) = (onlyOneTable id os).outline := by
  unfold onlyOneTable
  rw [applicable_outline]
  rcases applicable os with _ | ⟨o, _ | ⟨o', rest⟩⟩
  · rfl
  · rfl
  · have extents := extents_outline (o :: o' :: rest)
    simp only [List.map_cons] at extents ⊢
    rw [extents]
    rfl

theorem otherwiseTable_outline (winner : Effect) (os : List Outcome) :
    otherwiseTable winner (os.map Outcome.outline) = (otherwiseTable winner os).outline := by
  unfold otherwiseTable
  rw [decided_outline, decided_outline]
  cases os.filter (Outcome.decides winner) with
  | cons o rest => rfl
  | nil => exact congrArg (Outcome.mk _) (Outcome.obligations_outline _)

theorem reduce_outline (a : Algorithm) (id : String) (os : List Outcome) :
    a.reduce id (os.map Outcome.outline) = (a.reduce id os).outline := by
  rw [reduce_eq_table, reduce_eq_table]
  cases a with
  | denyOverrides => exact overridesTable_outline .deny os
  | permitOverrides => exact overridesTable_outline .permit os
  | firstApplicable => exact firstTable_outline os
  | onlyOneApplicable => exact onlyOneTable_outline id os
  | denyUnlessPermit => exact otherwiseTable_outline .permit os
  | permitUnlessDeny => exact otherwiseTable_outline .deny os

end Algorithm

def Rule.outline (r : Rule) : Rule where
  id := r.id
  target := r.target
  condition := r.condition
  effect := r.effect
  obligations := r.obligations.map Obligation.outline

def SetHeader.outline (h : SetHeader) : SetHeader where
  id := h.id
  target := h.target
  algorithm := h.algorithm
  obligations := h.obligations.map Obligation.outline

theorem SetHeader.addObligations_outline (h : SetHeader) (o : Outcome) :
    h.outline.addObligations o.outline = (h.addObligations o).outline := by
  have same : o.outline.decision = o.decision := rfl
  unfold addObligations
  rw [same]
  cases o.decision.effect? with
  | none => rfl
  | some e => simp only [Outcome.outline, outline, Obligation.forEffect_outline, List.map_append]

theorem Rule.outcome_outline (r : Rule) (b : Except Reason Bool) :
    r.outline.outcome b = (r.outcome b).outline := by
  rcases b with e | _ | _
  · rfl
  · rfl
  · exact congrArg (Outcome.mk _) (Obligation.forEffect_outline r.obligations r.effect)

theorem Rule.evaluate_outline (ctx : Context) (r : Rule) (c : Cache) :
    r.outline.evaluate ctx c = ((r.evaluate ctx c).1.outline, (r.evaluate ctx c).2) := by
  rw [evaluate_eq, evaluate_eq]
  exact congrArg (·, _) (r.outcome_outline _)

namespace Policy

mutual

def outline : Policy → Policy
  | rule r => rule r.outline
  | set h ps => set h.outline (outlineAll ps)

def outlineAll : List Policy → List Policy
  | [] => []
  | p :: ps => p.outline :: outlineAll ps

end

theorem possibleEffectsOf_outline (ps : List Policy)
    (each : ∀ p ∈ ps, p.outline.possibleEffects = p.possibleEffects) :
    possibleEffectsOf (outlineAll ps) = possibleEffectsOf ps := by
  induction ps with
  | nil => rfl
  | cons p ps ih =>
    obtain ⟨head, tail⟩ := List.forall_mem_cons.mp each
    rw [outlineAll, possibleEffectsOf, possibleEffectsOf, head, ih tail]

theorem possibleEffects_outline (p : Policy) : p.outline.possibleEffects = p.possibleEffects := by
  induction p with
  | rule r => rfl
  | set h ps each =>
    rw [outline, possibleEffects, possibleEffects, possibleEffectsOf_outline ps each]
    rfl

theorem targetFailure_outline (p : Policy) (r : Reason) :
    targetFailure p.outline r = (targetFailure p r).outline := by
  rw [targetFailure, targetFailure, possibleEffects_outline]
  cases p.possibleEffects <;> rfl

theorem evaluateChildren_outline (ctx : Context) (a : Algorithm) (ps : List Policy) (c : Cache)
    (each : ∀ p ∈ ps, ∀ c, p.outline.evaluate ctx c = ((p.evaluate ctx c).1.outline, (p.evaluate ctx c).2)) :
    evaluateChildren ctx a (outlineAll ps) c =
      ((evaluateChildren ctx a ps c).1.map Outcome.outline, (evaluateChildren ctx a ps c).2) := by
  induction ps generalizing c with
  | nil => rfl
  | cons p ps ih =>
    obtain ⟨head, tail⟩ := List.forall_mem_cons.mp each
    have same : (p.evaluate ctx c).1.outline.decision = (p.evaluate ctx c).1.decision := rfl
    rw [outlineAll, evaluateChildren_cons, evaluateChildren_cons, Cache.andThen, Cache.andThen, head]
    simp only [same]
    cases a.settles (p.evaluate ctx c).1.decision with
    | true => rfl
    | false =>
      simp only [Bool.false_eq_true, if_false, ih _ tail]
      rfl

theorem evaluate_outline (ctx : Context) (p : Policy) (c : Cache) :
    p.outline.evaluate ctx c = ((p.evaluate ctx c).1.outline, (p.evaluate ctx c).2) := by
  induction p generalizing c with
  | rule r => exact r.evaluate_outline ctx c.visitNode
  | set h ps each =>
    have sameTarget : h.outline.target = h.target := rfl
    rw [outline, evaluate_set, evaluate_set, Cache.andThen, Cache.andThen, sameTarget]
    rcases holdsIfPresent ctx h.target c.visitNode with ⟨e | _ | _, d⟩
    · exact congrArg (·, d) ((set h ps).targetFailure_outline e)
    · rfl
    · have children := evaluateChildren_outline ctx h.algorithm ps d each
      have reduced := h.algorithm.reduce_outline h.id (evaluateChildren ctx h.algorithm ps d).1
      have added :=
        h.addObligations_outline (h.algorithm.reduce h.id (evaluateChildren ctx h.algorithm ps d).1)
      rw [← reduced] at added
      simp only [SetHeader.outline, children] at added ⊢
      rw [added]

theorem evaluate_of_outline {p q : Policy} (same : q.outline = p.outline) (ctx : Context) (c : Cache) :
    (q.evaluate ctx c).1.outline = (p.evaluate ctx c).1.outline ∧
      (q.evaluate ctx c).2 = (p.evaluate ctx c).2 := by
  have outlines : q.outline.evaluate ctx c = p.outline.evaluate ctx c := by rw [same]
  rw [evaluate_outline, evaluate_outline] at outlines
  exact Prod.mk.inj outlines

end Policy

end AccessControl
