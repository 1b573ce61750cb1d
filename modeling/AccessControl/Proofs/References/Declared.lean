import AccessControl.Proofs.Validation.WellFormed

namespace AccessControl

theorem Catalog.contains_iff {c : Catalog} {a : AttributeId} :
    c.contains a = true ↔ c.get? a.category a.name = some a := by
  rw [contains, beq_iff_eq]

theorem Catalog.contains_unique {c : Catalog} {a b : AttributeId} (first : c.contains a = true)
    (second : c.contains b = true) (category : a.category = b.category) (name : a.name = b.name) : a = b := by
  rw [contains_iff] at first second
  rw [category, name, second] at first
  exact (Option.some.inj first).symm

theorem Catalog.get?_eq_some {c : Catalog} {category : Category} {name : String} {a : AttributeId} :
    c.get? category name = some a ↔ c.contains a = true ∧ category = a.category ∧ name = a.name := by
  constructor
  · intro found
    have named := List.find?_some found
    rw [Bool.and_eq_true, beq_iff_eq, beq_iff_eq] at named
    obtain ⟨rfl, rfl⟩ := named
    exact ⟨contains_iff.mpr found, rfl, rfl⟩
  · rintro ⟨declared, rfl, rfl⟩
    exact contains_iff.mp declared

namespace Expression

theorem mem_subexpressionsOf {s : Expression} {es : List Expression} :
    s ∈ subexpressionsOf es ↔ ∃ e ∈ es, s ∈ e.subexpressions := by
  induction es with
  | nil => simp [subexpressionsOf]
  | cons e es ih => simp [subexpressionsOf, ih]

theorem mem_attributes {e : Expression} {a : AttributeId} : a ∈ e.attributes ↔ ref a ∈ e.subexpressions := by
  have operands (es : List Expression) (each : ∀ e ∈ es, a ∈ e.attributes ↔ ref a ∈ e.subexpressions) :
      a ∈ attributesOf es ↔ ref a ∈ subexpressionsOf es := by
    rw [mem_attributesOf, mem_subexpressionsOf]
    exact exists_congr fun e => and_congr_right (each e)
  induction e with
  | literal v => simp [attributes, subexpressions]
  | ref b => simp [attributes, subexpressions]
  | compare op l r left right => simp [attributes, subexpressions, left, right]
  | and es each => simp [attributes, subexpressions, operands es each]
  | or es each => simp [attributes, subexpressions, operands es each]
  | not e operand => simp [attributes, subexpressions, operand]
  | call f es each => simp [attributes, subexpressions, operands es each]

end Expression

/-- Every attribute that an accepted tree mentions is declared exactly as it is mentioned. -/
theorem Policy.validate_mentions {catalog : Catalog} {maxDepth : Nat} {p : Policy}
    (valid : p.validate catalog maxDepth = .ok ()) {a : AttributeId} (mentions : p.Mentions a) :
    catalog.contains a = true := by
  obtain ⟨q, node, e, expression, member⟩ := mentions
  have sound := ((validate_ok.mp valid).nodes q node).expressions e expression
  exact Catalog.contains_iff.mpr (sound (.ref a) (Expression.mem_attributes.mp member))

end AccessControl
