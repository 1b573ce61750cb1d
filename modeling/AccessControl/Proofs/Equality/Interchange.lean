import Mathlib.Data.List.Perm.Basic
import AccessControl.Expression.Operators
import AccessControl.Proofs.Equality.Laws
import AccessControl.Proofs.Validation.WellFormed

namespace AccessControl

theorem forall₂_beq_iff_keys {vs ws : List Value} :
    List.Forall₂ (fun v w => (v == w) = true) vs ws ↔ vs.map Value.key = ws.map Value.key := by
  rw [← List.forall₂_eq_eq_eq, List.forall₂_map_left_iff, List.forall₂_map_right_iff]
  simp only [Value.beq_iff_key]

theorem exists_perm_iff_keys {vs ws : List Value} :
    (∃ us, List.Forall₂ (fun v u => (v == u) = true) vs us ∧ us.Perm ws) ↔
      (vs.map Value.key).Perm (ws.map Value.key) := by
  constructor
  · rintro ⟨us, equal, perm⟩
    rw [forall₂_beq_iff_keys.mp equal]
    exact perm.map Value.key
  · intro perm
    have spelled : List.Forall₂ (fun k w => k = Value.key w) (ws.map Value.key) ws :=
      List.forall₂_map_left_iff.mpr (List.forall₂_same.mpr fun _ _ => rfl)
    obtain ⟨us, keys, perm⟩ := List.perm_comp_forall₂ perm spelled
    rw [List.forall₂_map_left_iff] at keys
    exact ⟨us, keys.imp fun v u same => (v.beq_iff_key u).mpr same, perm⟩

namespace Bag

variable {a b c d : Bag}

theorem contains_iff_key {v : Value} : b.contains v = true ↔ v.key ∈ b.keys := by
  simp [contains, keys, Value.beq_iff_key]

theorem isSubsetOf_iff_keys : a.isSubsetOf b = true ↔ ∀ k ∈ a.keys, k ∈ b.keys := by
  rw [isSubsetOf, List.all_eq_true, keys, List.forall_mem_map]
  simp only [contains_iff_key]

theorem intersects_iff_keys : a.intersects b = true ↔ ∃ k ∈ a.keys, k ∈ b.keys := by
  rw [intersects, List.any_eq_true]
  simp only [contains_iff_key, keys, List.mem_map, exists_exists_and_eq_and]

theorem elementType?_eq_some {t : ValueType} (uniform : b.Uniform) :
    b.elementType? = some t ↔ ∃ k ∈ b.keys, k.1 = t := by
  obtain ⟨_ | ⟨v, vs⟩, ordered⟩ := b
  · simp [elementType?, keys]
  · simp only [elementType?, List.head?_cons, Option.map_some, Option.some.injEq, keys, List.mem_map,
      exists_exists_and_eq_and]
    constructor
    · exact fun type => ⟨v, List.mem_cons_self, type⟩
    · rintro ⟨w, member, type⟩
      exact (uniform v List.mem_cons_self w member).trans type

theorem contains_congr (same : (a == b) = true) (v : Value) : a.contains v = b.contains v := by
  rw [Bool.eq_iff_iff, contains_iff_key, contains_iff_key, (perm_of_beq same).mem_iff]

theorem size_congr (same : (a == b) = true) : a.size = b.size := by
  rw [← length_keys, ← length_keys, (perm_of_beq same).length_eq]

theorem isEmpty_congr (same : (a == b) = true) : a.isEmpty = b.isEmpty := by
  have sizes : a.values.length = b.values.length := size_congr same
  rw [isEmpty, isEmpty, Bool.eq_iff_iff, List.isEmpty_iff_length_eq_zero, List.isEmpty_iff_length_eq_zero,
    sizes]

theorem isSubsetOf_congr (left : (a == b) = true) (right : (c == d) = true) :
    a.isSubsetOf c = b.isSubsetOf d := by
  rw [Bool.eq_iff_iff, isSubsetOf_iff_keys, isSubsetOf_iff_keys]
  simp only [(perm_of_beq left).mem_iff, (perm_of_beq right).mem_iff]

theorem intersects_congr (left : (a == b) = true) (right : (c == d) = true) :
    a.intersects c = b.intersects d := by
  rw [Bool.eq_iff_iff, intersects_iff_keys, intersects_iff_keys]
  simp only [(perm_of_beq left).mem_iff, (perm_of_beq right).mem_iff]

theorem elementType?_congr (left : a.Uniform) (right : b.Uniform) (same : (a == b) = true) :
    a.elementType? = b.elementType? := by
  ext t
  rw [elementType?_eq_some left, elementType?_eq_some right]
  simp only [(perm_of_beq same).mem_iff]

end Bag

namespace AttributeValue

/-- Beside this operand no operator on bags tells the two values apart. -/
structure Interchangeable (v w operand : AttributeValue) : Prop where
  needle : CompareOp.isIn.apply v operand = CompareOp.isIn.apply w operand
  haystack : CompareOp.isIn.apply operand v = CompareOp.isIn.apply operand w
  size : Function.size.apply [v] = Function.size.apply [w]
  intersectsLeft : Function.intersects.apply [v, operand] = Function.intersects.apply [w, operand]
  intersectsRight : Function.intersects.apply [operand, v] = Function.intersects.apply [operand, w]
  truth : v.truth = w.truth

variable {a b : Bag}

theorem describe_congr (sizes : a.size = b.size) (types : a.elementType? = b.elementType?) :
    (bag a).describe = (bag b).describe := by
  rw [describe, describe, sizes, types]

theorem truth_congr (empty : a.isEmpty = b.isEmpty) (described : (bag a).describe = (bag b).describe) :
    (bag a).truth = (bag b).truth := by
  rw [truth, truth, empty, described]

theorem Interchangeable.of_beq (left : a.Uniform) (right : b.Uniform) (same : (a == b) = true)
    (operand : AttributeValue) : Interchangeable (bag a) (bag b) operand := by
  have types := Bag.elementType?_congr left right same
  have described := describe_congr (Bag.size_congr same) types
  have clashes (c : Bag) : a.typeClash? c = b.typeClash? c ∧ c.typeClash? a = c.typeClash? b := by
    simp only [Bag.typeClash?, types, and_self]
  have sizes : Function.size.apply [bag a] = Function.size.apply [bag b] := by
    simp only [Function.apply, Bag.size_congr same]
  have truths := truth_congr (Bag.isEmpty_congr same) described
  cases operand with
  | simple v =>
    refine ⟨rfl, ?_, sizes, ?_, ?_, truths⟩
    · simp only [CompareOp.apply, contained, types, Bag.contains_congr same]
    · simp only [Function.apply, List.map_cons, described]
    · simp only [Function.apply, List.map_cons, described]
  | bag c =>
    obtain ⟨clash, clash'⟩ := clashes c
    refine ⟨?_, ?_, sizes, ?_, ?_, truths⟩
    · simp only [CompareOp.apply, contained, clash, Bag.isSubsetOf_congr same c.beq_refl]
    · simp only [CompareOp.apply, contained, clash', Bag.isSubsetOf_congr c.beq_refl same]
    · simp only [Function.apply, clash, Bag.intersects_congr same c.beq_refl]
    · simp only [Function.apply, clash', Bag.intersects_congr c.beq_refl same]

end AttributeValue

/-- Two ordered bags are equal where they are value by value. Two others are where the one is a
rearrangement of the other, up to equality of values. Equal bags whose values all have one type give the
same result, or the same failure, wherever an operator takes a bag. -/
theorem Bag.equal_interchangeable (a b : Bag) :
    (a.ordered = true → b.ordered = true →
      ((a == b) = true ↔ List.Forall₂ (fun v w => (v == w) = true) a.values b.values)) ∧
    (¬(a.ordered = true ∧ b.ordered = true) →
      ((a == b) = true ↔
        ∃ vs, List.Forall₂ (fun v w => (v == w) = true) a.values vs ∧ vs.Perm b.values)) ∧
    (a.isHomogeneous = true → b.isHomogeneous = true → (a == b) = true →
      ∀ c : AttributeValue, AttributeValue.Interchangeable (.bag a) (.bag b) c) := by
  refine ⟨fun first second => ?_, fun mixed => ?_, fun left right same c => ?_⟩
  · rw [beq_ordered first second, forall₂_beq_iff_keys]
    rfl
  · have mixed : (a.ordered && b.ordered) = false := by
      rw [← Bool.not_eq_true, Bool.and_eq_true]
      exact mixed
    rw [beq_counted mixed, exists_perm_iff_keys]
    rfl
  · exact .of_beq (isHomogeneous_iff.mp left) (isHomogeneous_iff.mp right) same c

theorem Bag.equal_interchangeable_readings :
    let minusZero : Value := .double ⟨0x8000000000000000⟩
    let zero : Value := .double .zero
    let nan : Value := .double .nan
    let readings : Bag := ⟨[nan, zero, zero], false⟩
    let recorded : Bag := ⟨[minusZero, nan, zero], true⟩
    let zeros : Bag := ⟨[zero, minusZero], true⟩
    let folded : Bag := ⟨[minusZero, minusZero], true⟩
    (zeros == folded) = true ∧ (readings == recorded) = true ∧
      List.Forall₂ (fun v w => (v == w) = true) zeros.values folded.values ∧
      (∃ vs, List.Forall₂ (fun v w => (v == w) = true) readings.values vs ∧ vs.Perm recorded.values) ∧
      readings.isHomogeneous = true ∧ recorded.isHomogeneous = true ∧
      AttributeValue.Interchangeable (.bag readings) (.bag recorded) (.bag zeros) ∧
      CompareOp.isIn.apply (.bag zeros) (.bag readings) = .ok true := by
  intro minusZero zero nan readings recorded zeros folded
  have ordered : (zeros == folded) = true := by decide
  have counted : (readings == recorded) = true := by decide
  have uniform : readings.isHomogeneous = true := by decide
  have uniform' : recorded.isHomogeneous = true := by decide
  obtain ⟨valuewise, _, _⟩ := Bag.equal_interchangeable zeros folded
  obtain ⟨_, rearranged, interchangeable⟩ := Bag.equal_interchangeable readings recorded
  exact ⟨ordered, counted, (valuewise rfl rfl).mp ordered, (rearranged (by decide)).mp counted, uniform,
    uniform', interchangeable uniform uniform' counted _, rfl⟩

end AccessControl
