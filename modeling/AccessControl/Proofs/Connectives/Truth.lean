import AccessControl.Proofs.Eager.Expression

namespace AccessControl.Expression

theorem truth_ofBool (x : Except Reason Bool) : (x.map .ofBool).bind AttributeValue.truth = x := by
  cases x <;> rfl

section

variable (ctx : Context)

theorem holds_and (es : List Expression) : (and es).holds ctx = connective ctx false es := by
  funext c
  simp only [holds, value, truth_ofBool]

theorem holds_or (es : List Expression) : (or es).holds ctx = connective ctx true es := by
  funext c
  simp only [holds, value, truth_ofBool]

theorem holds_not (e : Expression) :
    (not e).holds ctx = fun c => ((e.holds ctx c).1.map (!·), (e.holds ctx c).2) := by
  funext c
  simp only [holds, value]
  cases (e.value ctx c).1.bind AttributeValue.truth <;> rfl

end

section

variable (val : Valuation)

theorem eagerAll_eq_map (es : List Expression) : eagerAll val es = es.map (eager val) := by
  induction es with
  | nil => rfl
  | cons e es ih => rw [eagerAll, ih, List.map_cons]

theorem truths_eq_map (es : List Expression) :
    ((eagerAll val es).map fun v => v.bind AttributeValue.truth) = es.map (eagerTruth val) := by
  rw [eagerAll_eq_map, List.map_map]
  rfl

theorem eagerTruth_and (es : List Expression) :
    (and es).eagerTruth val = connect false (es.map (eagerTruth val)) := by
  rw [eagerTruth, eager, truth_ofBool, truths_eq_map]

theorem eagerTruth_or (es : List Expression) :
    (or es).eagerTruth val = connect true (es.map (eagerTruth val)) := by
  rw [eagerTruth, eager, truth_ofBool, truths_eq_map]

theorem eagerTruth_not (e : Expression) : (not e).eagerTruth val = (e.eagerTruth val).map (!·) := by
  simp only [eagerTruth, eager]
  cases (e.eager val).bind AttributeValue.truth <;> rfl

end

end AccessControl.Expression
