import AccessControl.Expression.Operators
import AccessControl.Proofs.Equality.Laws

namespace AccessControl

theorem compare_then {α : Type} {cmp : α → α → Ordering} [Std.TransCmp cmp] {a b c : α}
    (first : (cmp a b).isLE = true) (second : (cmp b c).isLE = true) :
    cmp a c = (cmp a b).then (cmp b c) := by
  cases below : cmp a b with
  | eq => exact Std.TransCmp.congr_left below
  | gt =>
    rw [below] at first
    cases first
  | lt =>
    cases above : cmp b c with
    | lt => exact Std.TransCmp.lt_trans below above
    | eq => exact Std.TransCmp.lt_of_lt_of_eq below above
    | gt =>
      rw [above] at second
      cases second

namespace Instant

instance : Std.TransCmp Instant.compare :=
  inferInstanceAs <| Std.TransCmp <|
    compareLex (compareOn year) <| compareLex (compareOn month) <| compareLex (compareOn day) <|
      compareLex (compareOn hour) <| compareLex (compareOn minute) <|
        compareLex (compareOn second) (compareOn nano)

theorem compare_eq_eq {t u : Instant} : t.compare u = .eq ↔ t = u := by
  obtain ⟨year, month, day, hour, minute, second, nano, _⟩ := t
  obtain ⟨year', month', day', hour', minute', second', nano', _⟩ := u
  simp only [compare, Ordering.then_eq_eq, Std.compare_eq_iff_eq, mk.injEq]

end Instant

namespace Double

/-- The total order of doubles by sign and magnitude: the negative ones come first, by falling magnitude,
and then the others, by rising magnitude. -/
def Below (d e : Double) : Prop :=
  match d.negative, e.negative with
  | true, false => True
  | false, true => False
  | false, false => d.magnitude < e.magnitude
  | true, true => e.magnitude < d.magnitude

theorem orderKey_lt {d e : Double} : d.orderKey < e.orderKey ↔ d.Below e := by
  unfold orderKey Below
  cases d.negative <;> cases e.negative
  all_goals
    simp only [Bool.false_eq_true, if_true, if_false, iff_true, iff_false]
    omega

theorem orderKey_inj {d e : Double} : d.orderKey = e.orderKey ↔ d = e := by
  refine ⟨fun same => ?_, fun same => by rw [same]⟩
  obtain ⟨x⟩ := d
  obtain ⟨y⟩ := e
  have power : Nat.pow 2 63 = 9223372036854775808 := rfl
  have bound := x.toNat_lt
  have bound' := y.toNat_lt
  simp only [orderKey, negative, magnitude, power, decide_eq_true_eq] at same
  have bits : x.toNat = y.toNat := by
    split at same <;> split at same <;> omega
  rw [UInt64.toNat_inj.mp bits]

theorem foldZero_isZero (d : Double) : d.foldZero.isZero = d.isZero := by
  unfold foldZero
  cases zero : d.isZero
  · exact zero
  · rfl

theorem foldZero_inj {d e : Double} :
    d.foldZero = e.foldZero ↔ d = e ∨ d.isZero = true ∧ e.isZero = true := by
  constructor
  · intro same
    have zeros : d.isZero = e.isZero := by rw [← foldZero_isZero, same, foldZero_isZero]
    cases zero : e.isZero with
    | true => exact .inr ⟨zeros.trans zero, rfl⟩
    | false =>
      rw [zero] at zeros
      simp only [foldZero, zeros, zero, Bool.false_eq_true, if_false] at same
      exact .inl same
  · rintro (rfl | ⟨first, second⟩)
    · rfl
    · rw [foldZero, foldZero, if_pos first, if_pos second]

end Double

namespace Value

/-- Two values of one type other than boolean, and how the order of that type places the first. -/
inductive Placed : Value → Value → Ordering → Prop where
  | string (s t : String) : Placed (string s) (string t) (Ord.compare s t)
  | integer (m n : Int64) : Placed (integer m) (integer n) (Ord.compare m.toInt n.toInt)
  | double (d e : Double) : Placed (double d) (double e) (compareOn (fun d => d.foldZero.orderKey) d e)
  | dateTime (t u : Instant) : Placed (dateTime t) (dateTime u) (t.compare u)

variable {u v w : Value} {o x y : Ordering}

theorem compare_eq_some : v.compare w = some o ↔ Placed v w o := by
  constructor
  · intro placed
    cases v <;> cases w <;> cases placed
    · exact .string _ _
    · exact .integer _ _
    · exact .double _ _
    · exact .dateTime _ _
  · intro placed
    cases placed <;> rfl

theorem exists_placed_iff : (∃ o, Placed v w o) ↔ v.valueType = w.valueType ∧ v.valueType ≠ .boolean := by
  constructor
  · rintro ⟨o, placed⟩
    cases placed <;> exact ⟨rfl, nofun⟩
  · rintro ⟨same, orderable⟩
    cases v <;> cases w <;> cases same
    · exact absurd rfl orderable
    · exact ⟨_, .string _ _⟩
    · exact ⟨_, .integer _ _⟩
    · exact ⟨_, .double _ _⟩
    · exact ⟨_, .dateTime _ _⟩

theorem Placed.swap (placed : Placed v w o) : Placed w v o.swap := by
  cases placed with
  | string s t =>
    rw [← Std.OrientedCmp.eq_swap]
    exact .string t s
  | integer m n =>
    rw [← Std.OrientedCmp.eq_swap]
    exact .integer n m
  | double d e =>
    rw [← Std.OrientedCmp.eq_swap]
    exact .double e d
  | dateTime t u =>
    rw [← Std.OrientedCmp.eq_swap]
    exact .dateTime u t

theorem Placed.trans (first : Placed u v x) (second : Placed v w y) (before : x.isLE = true)
    (before' : y.isLE = true) : Placed u w (x.then y) := by
  cases first with
  | string s t =>
    cases second with
    | string _ r =>
      rw [← compare_then before before']
      exact .string s r
  | integer m n =>
    cases second with
    | integer _ k =>
      rw [← compare_then before before']
      exact .integer m k
  | double d e =>
    cases second with
    | double _ f =>
      rw [← compare_then before before']
      exact .double d f
  | dateTime t u =>
    cases second with
    | dateTime _ r =>
      rw [← compare_then before before']
      exact .dateTime t r

theorem double_beq {d e : Double} : (double d == double e) = true ↔ d.foldZero = e.foldZero := by
  have bits : d.foldZero.bits = e.foldZero.bits ↔ d.foldZero = e.foldZero := by
    rw [Double.mk.injEq]
  simp [beq_iff_key, key, valueType, hashInput, bits]

theorem Placed.eq_iff (placed : Placed v w o) : o = .eq ↔ (v == w) = true := by
  cases placed with
  | string s t =>
    rw [Std.compare_eq_iff_eq, beq_iff_key]
    simp [key, valueType, hashInput]
  | integer m n =>
    rw [Std.compare_eq_iff_eq, Int64.toInt_inj, beq_iff_key]
    simp [key, valueType, hashInput_integer]
  | double d e => rw [compareOn, Std.compare_eq_iff_eq, Double.orderKey_inj, double_beq]
  | dateTime t u =>
    rw [Instant.compare_eq_eq, beq_iff_key]
    simp [key, valueType, hashInput_dateTime]

theorem Placed.types (placed : Placed v w o) : v.valueType = w.valueType :=
  (exists_placed_iff.mp ⟨o, placed⟩).1

theorem compare_isSome_iff :
    (v.compare w).isSome = true ↔ v.valueType = w.valueType ∧ v.valueType ≠ .boolean := by
  rw [← exists_placed_iff, Option.isSome_iff_exists]
  simp only [compare_eq_some]

theorem compare_swap (v w : Value) : w.compare v = (v.compare w).map Ordering.swap := by
  cases placed : v.compare w with
  | some o => exact compare_eq_some.mpr (compare_eq_some.mp placed).swap
  | none =>
    rw [Option.map_none, Option.eq_none_iff_forall_ne_some]
    intro o back
    have forth := compare_eq_some.mpr (compare_eq_some.mp back).swap
    rw [placed] at forth
    cases forth

theorem compare_trans (first : u.compare v = some x) (second : v.compare w = some y)
    (before : x.isLE = true) (before' : y.isLE = true) : u.compare w = some (x.then y) :=
  compare_eq_some.mpr ((compare_eq_some.mp first).trans (compare_eq_some.mp second) before before')

theorem beq_iff_inputs : (v == w) = true ↔ v.valueType = w.valueType ∧ v.hashInput = w.hashInput := by
  rw [beq_iff_key, key, key, Prod.mk.injEq]

theorem compare_eq_eq : v.compare w = some .eq ↔ v.valueType ≠ .boolean ∧ (v == w) = true := by
  constructor
  · intro placed
    have placed := compare_eq_some.mp placed
    exact ⟨(exists_placed_iff.mp ⟨_, placed⟩).2, placed.eq_iff.mp rfl⟩
  · rintro ⟨orderable, same⟩
    obtain ⟨o, placed⟩ := exists_placed_iff.mpr ⟨(beq_iff_inputs.mp same).1, orderable⟩
    rw [compare_eq_some.mpr placed, placed.eq_iff.mpr same]

theorem hash_congr (same : (v == w) = true) : hash v = hash w := by
  obtain ⟨types, inputs⟩ := beq_iff_inputs.mp same
  have hashed (v : Value) : hash v = mixHash (hash v.valueType.name) (hash v.hashInput) := rfl
  rw [hashed, hashed, types, inputs]

theorem double_compare_lt {d e : Double} :
    (double d).compare (double e) = some .lt ↔ d.foldZero.Below e.foldZero := by
  have placed : (double d).compare (double e) =
      some (Ord.compare d.foldZero.orderKey e.foldZero.orderKey) := rfl
  rw [placed, Option.some.injEq, Int.compare_eq_lt, Double.orderKey_lt]

structure Judged (v w : Value) (below same above : Bool) : Prop where
  single : [below, same, above].count true = 1
  lt : CompareOp.lt.apply (.simple v) (.simple w) = .ok below
  eq : CompareOp.eq.apply (.simple v) (.simple w) = .ok same
  gt : CompareOp.gt.apply (.simple v) (.simple w) = .ok above
  le : CompareOp.le.apply (.simple v) (.simple w) = .ok (below || same)
  ge : CompareOp.ge.apply (.simple v) (.simple w) = .ok (!below)
  ltSwapped : CompareOp.lt.apply (.simple w) (.simple v) = .ok above
  gtSwapped : CompareOp.gt.apply (.simple w) (.simple v) = .ok below

theorem Placed.ordered (placed : Placed v w o) (op : CompareOp) (holds : Ordering → Bool) :
    AttributeValue.ordered op holds (.simple v) (.simple w) = .ok (holds o) := by
  simp only [AttributeValue.ordered, compare_eq_some.mpr placed]

theorem Placed.equal (placed : Placed v w o) :
    AttributeValue.equal (.simple v) (.simple w) = .ok o.isEq := by
  have same : (v == w) = o.isEq := by
    rw [Bool.eq_iff_iff, ← placed.eq_iff]
    cases o <;> simp
  rw [AttributeValue.equal, if_pos placed.types, same]

theorem Placed.judged (placed : Placed v w o) : Judged v w o.isLT o.isEq o.isGT where
  single := by cases o <;> rfl
  lt := placed.ordered .lt Ordering.isLT
  eq := placed.equal
  gt := placed.ordered .gt Ordering.isGT
  le := (placed.ordered .le Ordering.isLE).trans (by cases o <;> rfl)
  ge := (placed.ordered .ge Ordering.isGE).trans (by cases o <;> rfl)
  ltSwapped := (placed.swap.ordered .lt Ordering.isLT).trans (by cases o <;> rfl)
  gtSwapped := (placed.swap.ordered .gt Ordering.isGT).trans (by cases o <;> rfl)

theorem exists_judged (types : v.valueType = w.valueType) (orderable : v.valueType ≠ .boolean) :
    ∃ below same above, Judged v w below same above := by
  obtain ⟨o, placed⟩ := exists_placed_iff.mpr ⟨types, orderable⟩
  exact ⟨_, _, _, placed.judged⟩

/-- Two values have an order where they have the same type other than boolean. It is antisymmetric and
transitive, values in the same place are the equal ones, and equal values have the same input to their
hash. Doubles are in the order of sign and magnitude with the two zeros in one place, so every NaN has a
place of its own. -/
theorem order_laws (u v w : Value) (d e : Double) :
    ((u.compare v).isSome = true ↔ u.valueType = v.valueType ∧ u.valueType ≠ .boolean) ∧
    v.compare u = (u.compare v).map Ordering.swap ∧
    (∀ x y, u.compare v = some x → v.compare w = some y → x.isLE = true → y.isLE = true →
      u.compare w = some (x.then y)) ∧
    (u.compare v = some .eq ↔ u.valueType ≠ .boolean ∧ (u == v) = true) ∧
    ((u == v) = true ↔ u.valueType = v.valueType ∧ u.hashInput = v.hashInput) ∧
    ((u == v) = true → hash u = hash v) ∧
    ((u == u) = true ∧ ((u == v) = true → (v == u) = true) ∧
      ((u == v) = true → (v == w) = true → (u == w) = true)) ∧
    ((double d).compare (double e) = some .lt ↔ d.foldZero.Below e.foldZero) ∧
    ((double d == double e) = true ↔ d = e ∨ d.isZero = true ∧ e.isZero = true) ∧
    (u.valueType = v.valueType → u.valueType ≠ .boolean →
      ∃ below same above, Judged u v below same above) :=
  ⟨compare_isSome_iff, compare_swap u v, fun _ _ => compare_trans, compare_eq_eq, beq_iff_inputs,
    hash_congr, ⟨u.beq_refl, beq_symm, beq_trans⟩, double_compare_lt,
    double_beq.trans Double.foldZero_inj, exists_judged⟩

theorem order_laws_zeros :
    let lowest : Double := ⟨0xffffffffffffffff⟩
    let minusZero : Double := ⟨0x8000000000000000⟩
    (double lowest).compare (double minusZero) = some .lt ∧
      (double minusZero).compare (double .nan) = some .lt ∧
      (double lowest).compare (double .nan) = some .lt ∧
      (double minusZero == double .zero) = true ∧ (double .zero == double minusZero) = true ∧
      hash (double minusZero) = hash (double .zero) ∧
      ∃ below same above, Judged (double minusZero) (double .zero) below same above := by
  intro lowest minusZero
  have first : (double lowest).compare (double minusZero) = some .lt := by decide
  have second : (double minusZero).compare (double .nan) = some .lt := by decide
  have same : (double minusZero == double .zero) = true := by decide
  obtain ⟨_, _, transitive, _⟩ :=
    order_laws (double lowest) (double minusZero) (double .nan) lowest minusZero
  obtain ⟨_, _, _, _, _, hashes, ⟨_, symmetric, _⟩, _, _, judged⟩ :=
    order_laws (double minusZero) (double .zero) (double .zero) minusZero .zero
  exact ⟨first, second, transitive _ _ first second rfl rfl, same, symmetric same, hashes same,
    judged rfl nofun⟩

end Value

end AccessControl
