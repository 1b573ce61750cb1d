import Mathlib.Algebra.Order.Ring.Int
import Mathlib.Data.List.Perm.Subperm
import AccessControl.Value.Bag

namespace AccessControl

namespace Value

def key (v : Value) : ValueType × HashInput := (v.valueType, v.hashInput)

theorem hashInput_integer {m n : Int64} : (integer m).hashInput = (integer n).hashInput ↔ m = n := by
  obtain ⟨⟨m⟩⟩ := m
  obtain ⟨⟨n⟩⟩ := n
  simp [hashInput]

theorem hashInput_dateTime {s t : Instant} :
    (dateTime s).hashInput = (dateTime t).hashInput ↔ s = t := by
  obtain ⟨year, month, day, hour, minute, second, nano, _⟩ := s
  obtain ⟨year', month', day', hour', minute', second', nano', _⟩ := t
  simp [hashInput]

theorem beq_iff_key (v w : Value) : (v == w) = true ↔ v.key = w.key := by
  have compared : (v == w) = v.same w := rfl
  rw [compared]
  cases v with
  | boolean a => cases w <;> simp [same, key, valueType, hashInput]
  | string a => cases w <;> simp [same, key, valueType, hashInput]
  | integer a => cases w <;> simp [same, key, valueType, hashInput_integer]
  | double a => cases w <;> simp [same, key, valueType, hashInput]
  | dateTime a => cases w <;> simp [same, key, valueType, hashInput_dateTime]

theorem beq_eq_key (v w : Value) : (v == w) = (v.key == w.key) := by
  rw [Bool.eq_iff_iff, beq_iff_key, beq_iff_eq]

end Value

theorem beq_list_iff_keys (vs ws : List Value) :
    (vs == ws) = true ↔ vs.map Value.key = ws.map Value.key := by
  induction vs generalizing ws with
  | nil => cases ws <;> simp
  | cons v vs ih =>
    cases ws with
    | nil => simp
    | cons w ws => simp [Value.beq_iff_key, ih]

namespace Bag

variable {a b c : Bag}

def keys (b : Bag) : List (ValueType × Value.HashInput) := b.values.map Value.key

theorem length_keys (b : Bag) : b.keys.length = b.size := by rw [keys, List.length_map, size]

theorem occurrences_eq_count (b : Bag) (v : Value) : b.occurrences v = b.keys.count v.key := by
  simp only [occurrences, keys, List.count, List.countP_map, Value.beq_eq_key]
  rfl

theorem perm_of_counts {α : Type} [BEq α] [LawfulBEq α] {xs ys : List α} (length : xs.length = ys.length)
    (counts : ∀ x ∈ xs, xs.count x = ys.count x) : xs.Perm ys := by
  have within : xs.Subperm ys :=
    List.subperm_ext_iff.mpr fun x member => Nat.le_of_eq (counts x member)
  exact within.perm_of_length_le (Nat.le_of_eq length.symm)

theorem beq_ordered (first : a.ordered = true) (second : b.ordered = true) :
    (a == b) = true ↔ a.keys = b.keys := by
  have compared : (a == b) = a.same b := rfl
  rw [compared, same, first, second, Bool.and_self, if_pos rfl]
  by_cases sizes : a.size = b.size
  · simp [sizes, beq_list_iff_keys, keys]
  · have other : a.keys ≠ b.keys := by
      intro keys
      rw [← length_keys, ← length_keys, keys] at sizes
      exact sizes rfl
    simp [sizes, other]

theorem beq_counted (mixed : (a.ordered && b.ordered) = false) :
    (a == b) = true ↔ a.keys.Perm b.keys := by
  have compared : (a == b) = a.same b := rfl
  rw [compared, same, mixed]
  by_cases sizes : a.size = b.size
  · simp only [sizes, bne_self_eq_false, Bool.false_eq_true, if_false, List.all_eq_true, beq_iff_eq]
    constructor
    · intro counts
      have lengths : a.keys.length = b.keys.length := by rw [length_keys, length_keys, sizes]
      refine perm_of_counts lengths fun k member => ?_
      obtain ⟨v, value, rfl⟩ := List.mem_map.mp member
      rw [← occurrences_eq_count, ← occurrences_eq_count, counts v value]
    · intro perm v _
      rw [occurrences_eq_count, occurrences_eq_count, perm.count_eq]
  · have other : ¬a.keys.Perm b.keys := by
      intro perm
      rw [← length_keys, ← length_keys, perm.length_eq] at sizes
      exact sizes rfl
    simp [sizes, other]

theorem perm_of_beq (same : (a == b) = true) : a.keys.Perm b.keys := by
  cases ordered : a.ordered && b.ordered with
  | true =>
    obtain ⟨first, second⟩ := Bool.and_eq_true_iff.mp ordered
    rw [(beq_ordered first second).mp same]
  | false => exact (beq_counted ordered).mp same

end Bag

end AccessControl
