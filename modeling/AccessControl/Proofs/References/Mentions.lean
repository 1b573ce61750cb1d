import AccessControl.Proofs.Obligations.Provenance

namespace AccessControl

theorem Expression.mem_attributesOf {a : AttributeId} {es : List Expression} :
    a ∈ attributesOf es ↔ ∃ e ∈ es, a ∈ e.attributes := by
  induction es with
  | nil => simp [attributesOf]
  | cons e es ih => simp [attributesOf, ih]

namespace Policy

def expressions (p : Policy) : List Expression :=
  p.target.toList ++ p.condition.toList ++
    p.obligations.flatMap fun o => o.assignments.map AssignmentRule.value

theorem mem_expressions {p : Policy} {e : Expression} :
    e ∈ p.expressions ↔
      e ∈ p.target ∨ e ∈ p.condition ∨ ∃ o ∈ p.obligations, ∃ a ∈ o.assignments, e = a.value := by
  simp [expressions, eq_comm]

def Mentions (p : Policy) (a : AttributeId) : Prop := ∃ q ∈ p.nodes, ∃ e ∈ q.expressions, a ∈ e.attributes

theorem Mentions.child {h : SetHeader} {p : Policy} {ps : List Policy} {a : AttributeId}
    (mentions : p.Mentions a) (member : p ∈ ps) : (set h ps).Mentions a := by
  obtain ⟨q, node, e, holds, mentioned⟩ := mentions
  exact ⟨q, child_nodes_subset member node, e, holds, mentioned⟩

theorem mem_attributesIfPresent {o : Option Expression} {a : AttributeId} :
    a ∈ Expression.attributesIfPresent o ↔ ∃ e ∈ o, a ∈ e.attributes := by
  cases o <;> simp [Expression.attributesIfPresent]

theorem mentions_of_expression {p q : Policy} {e : Expression} {a : AttributeId} (node : q ∈ p.nodes)
    (expression : e ∈ q.target ∨ e ∈ q.condition ∨ ∃ o ∈ q.obligations, ∃ a ∈ o.assignments, e = a.value)
    (member : a ∈ e.attributes) : p.Mentions a :=
  ⟨q, node, e, mem_expressions.mpr expression, member⟩

theorem mem_attributesOf {a : AttributeId} {ps : List Policy} :
    a ∈ attributesOf ps ↔ ∃ p ∈ ps, a ∈ p.attributes := by
  induction ps with
  | nil => simp [attributesOf]
  | cons p ps ih => simp [attributesOf, ih]

theorem mentions_of_attributes {p : Policy} {a : AttributeId} (member : a ∈ p.attributes) : p.Mentions a := by
  induction p with
  | rule r =>
    have node := (rule r).mem_nodes
    rcases List.mem_append.mp member with member | member
    · obtain ⟨e, target, member⟩ := mem_attributesIfPresent.mp member
      exact mentions_of_expression node (.inl target) member
    · obtain ⟨e, condition, member⟩ := mem_attributesIfPresent.mp member
      exact mentions_of_expression node (.inr (.inl condition)) member
  | set h ps each =>
    rcases List.mem_append.mp member with member | member
    · obtain ⟨e, target, member⟩ := mem_attributesIfPresent.mp member
      exact mentions_of_expression (set h ps).mem_nodes (.inl target) member
    · obtain ⟨p, child, member⟩ := mem_attributesOf.mp member
      exact (each p child member).child child

theorem mentions_of_obligations {p : Policy} {a : AttributeId} {os : List Obligation}
    (held : ∀ o ∈ os, ∃ q ∈ p.nodes, o ∈ q.obligations) (member : a ∈ Obligation.attributes os) :
    p.Mentions a := by
  obtain ⟨o, listed, member⟩ := List.mem_flatMap.mp member
  obtain ⟨assignment, assigned, member⟩ := List.mem_flatMap.mp member
  obtain ⟨q, node, own⟩ := held o listed
  exact mentions_of_expression node (.inr (.inr ⟨o, own, assignment, assigned, rfl⟩)) member

end Policy

theorem Visit.Carries.held {ctx : Context} {e : Effect} {o : Obligation} {v : Visit}
    (carries : v.Carries ctx e o) : ∃ q ∈ v.node.nodes, o ∈ q.obligations := by
  induction carries with
  | @own v _ member => exact ⟨v.node, v.node.mem_nodes, member⟩
  | @child v w _ child _ ih =>
    obtain ⟨q, node, member⟩ := ih
    have below := mem_children ctx child
    obtain ⟨p, c⟩ := v
    cases p with
    | rule r => cases below
    | set h ps => exact ⟨q, Policy.child_nodes_subset below node, member⟩

theorem Policy.outcome_obligations_held (ctx : Context) (p : Policy) (c : Cache) :
    ∀ o ∈ (p.evaluate ctx c).1.obligations, ∃ q ∈ p.nodes, o ∈ q.obligations := by
  intro o member
  have gathers := (⟨p, c⟩ : Visit).outcome_gathers ctx
  cases effect : (p.evaluate ctx c).1.decision.effect? with
  | none =>
    have bare : (p.evaluate ctx c).1.obligations = [] := gathers.undecided effect
    rw [bare] at member
    cases member
  | some e =>
    have decided := Decision.eq_ofEffect effect
    have gathered : (p.evaluate ctx c).1.obligations = _ := gathers.decided e decided
    rw [gathered] at member
    exact (Visit.contributed_carries ctx ⟨p, c⟩ decided member).2.held

/-- Every attribute that an evaluation looks up, for the response as well, is mentioned. -/
theorem Policy.mentions_of_respond (ctx : Context) {p : Policy} {a : AttributeId}
    (member : a ∈ p.attributes ++ Obligation.attributes (p.evaluate ctx .empty).1.obligations) :
    p.Mentions a := by
  rcases List.mem_append.mp member with member | member
  · exact mentions_of_attributes member
  · exact mentions_of_obligations (p.outcome_obligations_held ctx .empty) member

end AccessControl
