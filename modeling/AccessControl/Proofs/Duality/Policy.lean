import AccessControl.Proofs.Duality.Combine
import AccessControl.Proofs.Eager.Policy

namespace AccessControl

def Rule.mirror (r : Rule) : Rule where
  id := r.id
  target := r.target
  condition := r.condition
  effect := r.effect.opposite
  obligations := r.obligations.map Obligation.mirror

def SetHeader.mirror (h : SetHeader) : SetHeader where
  id := h.id
  target := h.target
  algorithm := h.algorithm.mirror
  obligations := h.obligations.map Obligation.mirror

namespace Policy

mutual

/-- Permit and deny exchanged in the rules, the algorithms and the obligations. -/
def mirror : Policy → Policy
  | rule r => rule r.mirror
  | set h ps => set h.mirror (mirrorAll ps)

def mirrorAll : List Policy → List Policy
  | [] => []
  | p :: ps => p.mirror :: mirrorAll ps

end

theorem mirror_id (p : Policy) : p.mirror.id = p.id := by cases p <;> rfl

end Policy

def Response.mirror (r : Response) : Response where
  decision := r.decision.mirror
  obligations := r.obligations

theorem Rule.outcome_mirror (r : Rule) (b : Except Reason Bool) :
    r.mirror.outcome b = (r.outcome b).mirror := by
  rcases b with e | _ | _
  · simp [outcome, mirror]
  · rfl
  · have kept := Obligation.forEffect_mirror r.obligations r.effect
    simp only [outcome, mirror, Outcome.mirror, Decision.mirror_ofEffect]
    exact congrArg (Outcome.mk _) kept

theorem Rule.evaluate_mirror (ctx : Context) (r : Rule) (c : Cache) :
    r.mirror.evaluate ctx c = ((r.evaluate ctx c).1.mirror, (r.evaluate ctx c).2) := by
  rw [evaluate_eq, evaluate_eq]
  exact congrArg (·, _) (r.outcome_mirror _)

theorem SetHeader.addObligations_mirror (h : SetHeader) (o : Outcome) :
    h.mirror.addObligations o.mirror = (h.addObligations o).mirror := by
  have effect := o.decision.effect?_mirror
  cases decided : o.decision.effect? with
  | none =>
    rw [decided] at effect
    simp only [addObligations, Outcome.mirror, decided, effect, Option.map_none]
  | some e =>
    rw [decided] at effect
    simp only [addObligations, Outcome.mirror, decided, effect, Option.map_some, mirror,
      Obligation.forEffect_mirror, List.map_append]

namespace Policy

theorem possibleEffectsOf_mirror (ps : List Policy)
    (each : ∀ p ∈ ps, p.mirror.possibleEffects = p.possibleEffects.map Extent.mirror) :
    possibleEffectsOf (mirrorAll ps) = (possibleEffectsOf ps).map Extent.mirror := by
  induction ps with
  | nil => rfl
  | cons p ps ih =>
    obtain ⟨head, tail⟩ := List.forall_mem_cons.mp each
    rw [mirrorAll, possibleEffectsOf, possibleEffectsOf, head, ih tail, List.map_append]
    cases p.possibleEffects <;> rfl

theorem possibleEffects_mirror (p : Policy) :
    p.mirror.possibleEffects = p.possibleEffects.map Extent.mirror := by
  induction p with
  | rule r => simp [mirror, possibleEffects, Rule.mirror]
  | set h ps each =>
    have default : (h.mirror.algorithm.default?.map Extent.ofEffect).toList =
        (h.algorithm.default?.map Extent.ofEffect).toList.map Extent.mirror := by
      rw [SetHeader.mirror, Algorithm.default?_mirror]
      cases h.algorithm.default? <;> simp
    rw [mirror, possibleEffects, possibleEffects, possibleEffectsOf_mirror ps each, default,
      ← List.map_append, Extent.unionAll_mirror]

theorem targetFailure_mirror (p : Policy) (r : Reason) :
    targetFailure p.mirror r = (targetFailure p r).mirror := by
  rw [targetFailure, targetFailure, possibleEffects_mirror]
  cases p.possibleEffects <;> rfl

theorem evaluateChildren_mirror (ctx : Context) (a : Algorithm) (ps : List Policy) (c : Cache)
    (each : ∀ p ∈ ps, ∀ c, p.mirror.evaluate ctx c = ((p.evaluate ctx c).1.mirror, (p.evaluate ctx c).2)) :
    evaluateChildren ctx a.mirror (mirrorAll ps) c =
      ((evaluateChildren ctx a ps c).1.map Outcome.mirror, (evaluateChildren ctx a ps c).2) := by
  induction ps generalizing c with
  | nil => rfl
  | cons p ps ih =>
    obtain ⟨head, tail⟩ := List.forall_mem_cons.mp each
    have settles : a.mirror.settles (p.evaluate ctx c).1.mirror.decision =
        a.settles (p.evaluate ctx c).1.decision := a.settles_mirror _
    rw [mirrorAll, evaluateChildren_cons, evaluateChildren_cons, Cache.andThen, Cache.andThen, head]
    simp only [settles]
    cases a.settles (p.evaluate ctx c).1.decision with
    | true => rfl
    | false =>
      simp only [Bool.false_eq_true, if_false, ih _ tail]
      rfl

theorem evaluate_mirror (ctx : Context) (p : Policy) (c : Cache) :
    p.mirror.evaluate ctx c = ((p.evaluate ctx c).1.mirror, (p.evaluate ctx c).2) := by
  induction p generalizing c with
  | rule r => exact r.evaluate_mirror ctx c.visitNode
  | set h ps each =>
    have sameTarget : h.mirror.target = h.target := rfl
    rw [mirror, evaluate_set, evaluate_set, Cache.andThen, Cache.andThen, sameTarget]
    rcases holdsIfPresent ctx h.target c.visitNode with ⟨e | _ | _, d⟩
    · have failed := (set h ps).targetFailure_mirror e
      rw [mirror] at failed
      simp only [failed]
    · rfl
    · have children := evaluateChildren_mirror ctx h.algorithm ps d each
      have reduced := h.algorithm.reduce_mirror h.id (evaluateChildren ctx h.algorithm ps d).1
      have added := h.addObligations_mirror
        (h.algorithm.reduce h.id (evaluateChildren ctx h.algorithm ps d).1)
      rw [← reduced] at added
      simp only [SetHeader.mirror, children] at added ⊢
      rw [added]

end Policy

section Validation

variable (catalog : Catalog) (path : String)

theorem Obligation.validateAll_mirror (os : List Obligation) :
    validateAll catalog path (os.map mirror) = validateAll catalog path os := by
  induction os with
  | nil => rfl
  | cons o os ih =>
    rw [List.map_cons, validateAll, validateAll, ih]
    rfl

theorem Obligation.validateEffects_mirror (e : Effect) (os : List Obligation) :
    validateEffects path e.opposite (os.map mirror) = validateEffects path e os := by
  induction os with
  | nil => rfl
  | cons o os ih => simp [validateEffects, mirror, ih]

theorem Rule.validate_mirror (r : Rule) : r.mirror.validate catalog path = r.validate catalog path := by
  simp only [validate, mirror, Obligation.validateEffects_mirror, Obligation.validateAll_mirror]

theorem SetHeader.validate_mirror (h : SetHeader) :
    h.mirror.validate catalog path = h.validate catalog path := by
  simp only [validate, mirror, Obligation.validateAll_mirror]

namespace Policy

theorem validateChildren_mirror (maxDepth depth : Nat) (seen : List String) (ps : List Policy)
    (each : ∀ p ∈ ps, ∀ path depth, p.mirror.validateNode catalog maxDepth path depth =
      p.validateNode catalog maxDepth path depth) :
    validateChildren catalog maxDepth path depth seen (mirrorAll ps) =
      validateChildren catalog maxDepth path depth seen ps := by
  induction ps generalizing seen with
  | nil => rfl
  | cons p ps ih =>
    obtain ⟨head, tail⟩ := List.forall_mem_cons.mp each
    rw [mirrorAll, validateChildren, validateChildren, p.mirror_id, head, ih _ tail]

theorem validateNode_mirror (maxDepth depth : Nat) (p : Policy) :
    p.mirror.validateNode catalog maxDepth path depth = p.validateNode catalog maxDepth path depth := by
  induction p generalizing path depth with
  | rule r => rw [mirror, validateNode, validateNode, r.validate_mirror]
  | set h ps each =>
    have children := validateChildren_mirror catalog path maxDepth (depth + 1) [] ps
      fun p member path depth =>
      each p member path depth
    rw [mirror, validateNode, validateNode, h.validate_mirror, children]

theorem validate_mirror (maxDepth : Nat) (p : Policy) :
    p.mirror.validate catalog maxDepth = p.validate catalog maxDepth := by
  rw [validate, validate, p.mirror_id, validateNode_mirror]

end Policy

end Validation

theorem Obligation.fulfill_mirror (ctx : Context) (os : List Obligation) :
    fulfill ctx (os.map mirror) = fulfill ctx os := by
  induction os with
  | nil => rfl
  | cons o os ih =>
    rw [List.map_cons, fulfill_cons, fulfill_cons, ih]
    rfl

theorem Outcome.respond_mirror (ctx : Context) (o : Outcome) (c : Cache) :
    o.mirror.respond ctx c = ((o.respond ctx c).1.mirror, (o.respond ctx c).2) := by
  have effect := o.decision.effect?_mirror
  cases decided : o.decision.effect? with
  | none =>
    rw [decided, Option.map_none] at effect
    have mirrored : o.mirror.decision.effect? = none := effect
    simp only [respond, decided, mirrored]
    rfl
  | some e =>
    rw [decided, Option.map_some] at effect
    have mirrored : o.mirror.decision.effect? = some e.opposite := effect
    have same : Obligation.fulfill ctx o.mirror.obligations = Obligation.fulfill ctx o.obligations :=
      Obligation.fulfill_mirror ctx o.obligations
    rw [respond_effect ctx decided, respond_effect ctx mirrored, same]
    cases (Obligation.fulfill ctx o.obligations c).1 with
    | ok os => rfl
    | error r => simp [answer, Response.bare, Response.mirror, Decision.mirror]

/-- A mirrored tree passes the same checks or fails the same one first. Its response has the other
effect or extent, the same reason and the same fulfilled obligations, and costs the same calls of the
resolver, in the same order, the same hits of the cache and the same visits. -/
theorem Policy.respond_mirrored (p : Policy) (catalog : Catalog) (options : Options) (ctx : Context) :
    p.mirror.validate catalog options.maxDepth = p.validate catalog options.maxDepth ∧
      (p.mirror.respond ctx).1 = (p.respond ctx).1.mirror ∧
      (p.mirror.respond ctx).2 = (p.respond ctx).2 := by
  have mirrored : p.mirror.respond ctx = ((p.respond ctx).1.mirror, (p.respond ctx).2) := by
    rw [respond, evaluate_mirror]
    exact (p.evaluate ctx .empty).1.respond_mirror ctx _
  refine ⟨p.validate_mirror catalog options.maxDepth, ?_, ?_⟩
  · rw [mirrored]
  · rw [mirrored]

end AccessControl
