import AccessControl.Proofs.Equality.Key

namespace AccessControl

namespace Value

theorem beq_refl (v : Value) : (v == v) = true := (beq_iff_key v v).mpr rfl

theorem beq_symm {v w : Value} (same : (v == w) = true) : (w == v) = true :=
  (beq_iff_key w v).mpr ((beq_iff_key v w).mp same).symm

theorem beq_trans {u v w : Value} (first : (u == v) = true) (second : (v == w) = true) :
    (u == w) = true :=
  (beq_iff_key u w).mpr (((beq_iff_key u v).mp first).trans ((beq_iff_key v w).mp second))

end Value

namespace Bag

theorem beq_refl (a : Bag) : (a == a) = true := by
  cases ordered : a.ordered with
  | true => exact (beq_ordered ordered ordered).mpr rfl
  | false => exact (beq_counted (by rw [ordered]; rfl)).mpr (.refl _)

theorem beq_symm {a b : Bag} (same : (a == b) = true) : (b == a) = true := by
  cases mixed : a.ordered && b.ordered with
  | true =>
    obtain ⟨first, second⟩ := Bool.and_eq_true_iff.mp mixed
    exact (beq_ordered second first).mpr ((beq_ordered first second).mp same).symm
  | false =>
    rw [Bool.and_comm] at mixed
    exact (beq_counted mixed).mpr (perm_of_beq same).symm

theorem beq_trans_iff {a b c : Bag} (first : (a == b) = true) (second : (b == c) = true) :
    (a == c) = true ↔
      (a.ordered = true → b.ordered = false → c.ordered = true → (a.values == c.values) = true) := by
  have counted : a.keys.Perm c.keys := (perm_of_beq first).trans (perm_of_beq second)
  cases outer : a.ordered && c.ordered with
  | false =>
    have apart (ordered : a.ordered = true) (ordered' : c.ordered = true) : False := by
      rw [ordered, ordered'] at outer
      cases outer
    refine ⟨fun _ ordered _ ordered' => (apart ordered ordered').elim, fun _ => ?_⟩
    exact (beq_counted outer).mpr counted
  | true =>
    obtain ⟨ordered, ordered'⟩ := Bool.and_eq_true_iff.mp outer
    have valuewise : (a == c) = true ↔ (a.values == c.values) = true := by
      rw [beq_ordered ordered ordered', beq_list_iff_keys, keys, keys]
    cases middle : b.ordered with
    | false => exact valuewise.trans ⟨fun same _ _ _ => same, fun same => same ordered rfl ordered'⟩
    | true =>
      have keys := ((beq_ordered ordered middle).mp first).trans ((beq_ordered middle ordered').mp second)
      refine ⟨fun _ _ unordered => absurd unordered (by decide), fun _ => ?_⟩
      exact (beq_ordered ordered ordered').mpr keys

end Bag

namespace AttributeValue

theorem beq_bag (a b : Bag) : (bag a == bag b) = (a == b) := rfl

theorem beq_refl (v : AttributeValue) : (v == v) = true := by
  cases v with
  | simple v => exact v.beq_refl
  | bag b => exact b.beq_refl

theorem beq_symm {v w : AttributeValue} (same : (v == w) = true) : (w == v) = true := by
  cases v with
  | simple v =>
    cases w with
    | simple w => exact Value.beq_symm same
    | bag b => cases same
  | bag a =>
    cases w with
    | simple w => cases same
    | bag b => exact Bag.beq_symm same

theorem beq_cases {v w : AttributeValue} (same : (v == w) = true) :
    (∃ x y, v = simple x ∧ w = simple y ∧ (x == y) = true) ∨
      ∃ a b, v = bag a ∧ w = bag b ∧ (a == b) = true := by
  cases v with
  | simple v =>
    cases w with
    | simple w => exact .inl ⟨v, w, rfl, rfl, same⟩
    | bag b => cases same
  | bag a =>
    cases w with
    | simple w => cases same
    | bag b => exact .inr ⟨a, b, rfl, rfl, same⟩

/-- Two ordered bags with an unordered one between them agree value by value. -/
def Passes (u v w : AttributeValue) : Prop :=
  ∀ a b c : Bag, u = bag a → v = bag b → w = bag c →
    a.ordered = true → b.ordered = false → c.ordered = true → (a.values == c.values) = true

theorem beq_trans_iff {u v w : AttributeValue} (first : (u == v) = true) (second : (v == w) = true) :
    (u == w) = true ↔ Passes u v w := by
  rcases beq_cases first with ⟨x, y, rfl, rfl, same⟩ | ⟨a, b, rfl, rfl, same⟩
  · rcases beq_cases second with ⟨y', z, single, rfl, same'⟩ | ⟨_, _, none, _⟩
    · cases single
      refine ⟨fun _ a b c none => ?_, fun _ => Value.beq_trans same same'⟩
      cases none
    · cases none
  · rcases beq_cases second with ⟨_, _, none, _⟩ | ⟨b', c, bags, rfl, same'⟩
    · cases none
    · cases bags
      rw [beq_bag, Bag.beq_trans_iff same same']
      constructor
      · rintro passes _ _ _ ⟨⟩ ⟨⟩ ⟨⟩
        exact passes
      · exact fun passes => passes a b c rfl rfl rfl

/-- Equality is reflexive and symmetric, and passed on exactly where no unordered bag stands between two
ordered ones that differ in the order of their values. -/
theorem equality_laws (u v w : AttributeValue) (a b c : Bag) :
    (u == u) = true ∧
    ((u == v) = true → (v == u) = true) ∧
    ((u == v) = true → (v == w) = true → ((u == w) = true ↔ Passes u v w)) ∧
    (a == a) = true ∧
    ((a == b) = true → (b == a) = true) ∧
    ((a == b) = true → (b == c) = true → ((a == c) = true ↔
      (a.ordered = true → b.ordered = false → c.ordered = true → (a.values == c.values) = true))) :=
  ⟨u.beq_refl, beq_symm, beq_trans_iff, a.beq_refl, Bag.beq_symm, Bag.beq_trans_iff⟩

theorem equality_laws_tags :
    let aab : Bag := ⟨[.string "a", .string "a", .string "b"], false⟩
    let aba : Bag := ⟨[.string "a", .string "b", .string "a"], true⟩
    let baa : Bag := ⟨[.string "b", .string "a", .string "a"], false⟩
    (aab == aba) = true ∧ (aba == baa) = true ∧ (aab == baa) = true := by
  intro aab aba baa
  have first : (aab == aba) = true := by decide
  have second : (aba == baa) = true := by decide
  obtain ⟨_, _, _, _, _, passed⟩ := equality_laws (bag aab) (bag aba) (bag baa) aab aba baa
  refine ⟨first, second, (passed first second).mpr fun ordered => ?_⟩
  cases ordered

/-- Two orders of the same two values, and between them a bag without an order. -/
theorem equality_not_passed :
    let ab : Bag := ⟨[.string "a", .string "b"], true⟩
    let either : Bag := ⟨[.string "b", .string "a"], false⟩
    let ba : Bag := ⟨[.string "b", .string "a"], true⟩
    (ab == either) = true ∧ (either == ba) = true ∧ (ab == ba) = false ∧
      (bag ab == bag either) = true ∧ (bag either == bag ba) = true ∧ (bag ab == bag ba) = false := by
  decide

end AttributeValue

end AccessControl
