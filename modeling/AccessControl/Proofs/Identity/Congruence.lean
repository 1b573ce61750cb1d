import AccessControl.Proofs.References.Mentions

namespace AccessControl

/-- The look-up has the same result and effect in both contexts, from every cache. -/
def Context.SameAt (ctx ctx' : Context) (a : AttributeId) : Prop :=
  ∀ c : Cache, c.lookup ctx a = c.lookup ctx' a

variable {ctx ctx' : Context}

namespace Expression

theorem connective_congr (settling : Bool) {es : List Expression}
    (each : ∀ e ∈ es, e.value ctx = e.value ctx') :
    connective ctx settling es = connective ctx' settling es := by
  induction es with
  | nil => rfl
  | cons e es ih =>
    obtain ⟨head, tail⟩ := List.forall_mem_cons.mp each
    rw [connective_cons, connective_cons, head, ih tail]

theorem values_congr {es : List Expression} (each : ∀ e ∈ es, e.value ctx = e.value ctx') :
    values ctx es = values ctx' es := by
  induction es with
  | nil => rfl
  | cons e es ih =>
    obtain ⟨head, tail⟩ := List.forall_mem_cons.mp each
    rw [values_cons, values_cons, head, ih tail]

theorem value_congr {e : Expression} (same : ∀ a ∈ e.attributes, ctx.SameAt ctx' a) :
    e.value ctx = e.value ctx' := by
  have operands (es : List Expression) (same : ∀ a ∈ attributesOf es, ctx.SameAt ctx' a)
      (each : ∀ e ∈ es, (∀ a ∈ e.attributes, ctx.SameAt ctx' a) → e.value ctx = e.value ctx') :
      ∀ e ∈ es, e.value ctx = e.value ctx' := by
    intro e member
    apply each e member
    intro a refers
    exact same a (mem_attributesOf.mpr ⟨e, member, refers⟩)
  induction e with
  | literal v => rfl
  | ref a => exact funext (same a List.mem_cons_self)
  | compare op l r left right =>
    obtain ⟨first, second⟩ := List.forall_mem_append.mp same
    rw [value_compare, value_compare, left first, right second]
  | and es each =>
    funext c
    rw [value, value, connective_congr false (operands es same each)]
  | or es each =>
    funext c
    rw [value, value, connective_congr true (operands es same each)]
  | not e operand =>
    funext c
    rw [value, value, operand same]
  | call f es each =>
    by_cases test : f = .isPresent
    · subst test
      funext c
      by_cases single : ∃ a, es = [ref a]
      · obtain ⟨a, rfl⟩ := single
        rw [value_presence, value_presence, same a List.mem_cons_self c]
      · rw [value_presence_malformed ctx single, value_presence_malformed ctx' single]
    · rw [value_call ctx test, value_call ctx' test, values_congr (operands es same each)]

end Expression

theorem holdsIfPresent_congr {e : Option Expression}
    (same : ∀ a ∈ Expression.attributesIfPresent e, ctx.SameAt ctx' a) :
    holdsIfPresent ctx e = holdsIfPresent ctx' e := by
  cases e with
  | none => rfl
  | some e =>
    funext c
    rw [holdsIfPresent, holdsIfPresent, Expression.holds, Expression.holds, e.value_congr same]

theorem Rule.evaluate_congr {r : Rule} (same : ∀ a ∈ r.attributes, ctx.SameAt ctx' a) :
    r.evaluate ctx = r.evaluate ctx' := by
  obtain ⟨target, condition⟩ := List.forall_mem_append.mp same
  rw [evaluate_eq, evaluate_eq, holdsIfPresent_congr target, holdsIfPresent_congr condition]

namespace Policy

theorem evaluateChildren_congr (a : Algorithm) {ps : List Policy}
    (each : ∀ p ∈ ps, p.evaluate ctx = p.evaluate ctx') :
    evaluateChildren ctx a ps = evaluateChildren ctx' a ps := by
  induction ps with
  | nil => rfl
  | cons p ps ih =>
    obtain ⟨head, tail⟩ := List.forall_mem_cons.mp each
    rw [evaluateChildren_cons, evaluateChildren_cons, head, ih tail]

theorem evaluate_congr {p : Policy} (same : ∀ a ∈ p.attributes, ctx.SameAt ctx' a) :
    p.evaluate ctx = p.evaluate ctx' := by
  induction p with
  | rule r =>
    funext c
    rw [evaluate, evaluate, r.evaluate_congr same]
  | set h ps each =>
    obtain ⟨target, below⟩ := List.forall_mem_append.mp same
    have children (p : Policy) (child : p ∈ ps) : p.evaluate ctx = p.evaluate ctx' :=
      each p child fun a member => below a (mem_attributesOf.mpr ⟨p, child, member⟩)
    funext c
    rw [evaluate_set, evaluate_set, holdsIfPresent_congr target, evaluateChildren_congr h.algorithm children]

end Policy

namespace Obligation

theorem assign_congr {as : List AssignmentRule}
    (same : ∀ a ∈ as.flatMap fun a => a.value.attributes, ctx.SameAt ctx' a) :
    assign ctx as = assign ctx' as := by
  induction as with
  | nil => rfl
  | cons a as ih =>
    rw [List.flatMap_cons] at same
    obtain ⟨head, tail⟩ := List.forall_mem_append.mp same
    rw [assign_cons, assign_cons, Expression.value_congr head, ih tail]

theorem fulfill_congr {os : List Obligation} (same : ∀ a ∈ attributes os, ctx.SameAt ctx' a) :
    fulfill ctx os = fulfill ctx' os := by
  induction os with
  | nil => rfl
  | cons o os ih =>
    rw [attributes_cons] at same
    obtain ⟨head, tail⟩ := List.forall_mem_append.mp same
    rw [fulfill_cons, fulfill_cons, assign_congr head, ih tail]

end Obligation

theorem Outcome.respond_congr {o : Outcome}
    (fulfilled : Obligation.fulfill ctx o.obligations = Obligation.fulfill ctx' o.obligations) (c : Cache) :
    o.respond ctx c = o.respond ctx' c := by
  unfold respond
  rw [fulfilled]

theorem Policy.respond_congr {p : Policy} (same : ∀ a, p.Mentions a → ctx.SameAt ctx' a) :
    p.respond ctx = p.respond ctx' := by
  have outcome := evaluate_congr fun a member => same a (mentions_of_attributes member)
  -- the assignments that are looked up belong to nodes of the tree, since the outcome has no others
  have held := p.outcome_obligations_held ctx .empty
  have fulfilled := Obligation.fulfill_congr fun a member => same a (mentions_of_obligations held member)
  rw [respond, respond, ← outcome]
  exact Outcome.respond_congr fulfilled _

end AccessControl
