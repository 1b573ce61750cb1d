import AccessControl.Proofs.References.Mentions

namespace AccessControl

/-- An operator refuses its operands for this reason. -/
inductive Reason.OfOperator : Reason → Prop where
  | truth {v : AttributeValue} {r : Reason} (refused : v.truth = .error r) : OfOperator r
  | compare {op : CompareOp} {a b : AttributeValue} {r : Reason} (refused : op.apply a b = .error r) :
    OfOperator r
  | call {f : Function} {args : List AttributeValue} {r : Reason} (refused : f.apply args = .error r) :
    OfOperator r
  | presence : OfOperator (.typeMismatch "is_present expects a single attribute reference")

def Unquoted (s : String) : Prop := ∃ c cs, s.toList = c :: cs ∧ c ∉ "'".toList

instance (s : String) : Decidable (Unquoted s) :=
  decidable_of_iff (s.toList.head?.any fun c => c ∉ "'".toList) (by
    unfold Unquoted
    cases s.toList <;> simp)

theorem Unquoted.append {s : String} (unquoted : Unquoted s) (t : String) : Unquoted (s ++ t) := by
  obtain ⟨c, cs, chars, other⟩ := unquoted
  exact ⟨c, cs ++ t.toList, by rw [String.toList_append, chars, List.cons_append], other⟩

/-- The reasons that are about values that are there. A mismatch between them names no attribute. -/
def Reason.OfValues : Reason → Prop
  | typeMismatch detail => Unquoted detail
  | bagTruthiness _ => True
  | arithmetic _ => True
  | _ => False

/-- The kinds of reasons that can arise in an expression. -/
def Reason.Elementary : Reason → Prop
  | multipleApplicable _ => False
  | obligationFailed _ _ => False
  | _ => True

theorem unquoted_presence : Unquoted "is_present expects a single attribute reference" := by decide

theorem Function.name_unquoted (f : Function) : Unquoted f.name := by cases f <;> decide

theorem Reason.OfValues.elementary {r : Reason} (ofValues : r.OfValues) : r.Elementary := by
  cases r with
  | typeMismatch => trivial
  | bagTruthiness => trivial
  | arithmetic => trivial
  | _ => exact ofValues.elim

section

variable {r : Reason}

theorem AttributeValue.truth_refused {v : AttributeValue} (refused : v.truth = .error r) : r.OfValues := by
  unfold truth at refused
  split at refused
  · cases refused
  · cases refused
    exact Unquoted.append (by decide) _
  · split at refused <;> cases refused
    trivial

theorem AttributeValue.equal_refused {a b : AttributeValue} (refused : a.equal b = .error r) :
    r.OfValues := by
  unfold equal at refused
  split at refused
  · split at refused <;> cases refused
    exact ((Unquoted.append (by decide) _).append _).append _
  · split at refused <;> cases refused
    exact ((Unquoted.append (by decide) _).append _).append _
  · cases refused
    exact (((Unquoted.append (by decide) _).append _).append _).append _

theorem AttributeValue.contained_refused {a b : AttributeValue} (refused : a.contained b = .error r) :
    r.OfValues := by
  unfold contained at refused
  split at refused
  · split at refused
    · split at refused <;> cases refused
      exact ((Unquoted.append (by decide) _).append _).append _
    · cases refused
  · split at refused <;> cases refused
    exact ((Unquoted.append (by decide) _).append _).append _
  · cases refused
    exact Unquoted.append (by decide) _

theorem AttributeValue.ordered_refused {op : CompareOp} {holds : Ordering → Bool} {a b : AttributeValue}
    (refused : a.ordered op holds b = .error r) : r.OfValues := by
  unfold ordered at refused
  split at refused
  · split at refused <;> cases refused
    exact ((((Unquoted.append (by decide) _).append _).append _).append _).append _
  · cases refused
    exact ((((Unquoted.append (by decide) _).append _).append _).append _).append _

theorem CompareOp.apply_refused {op : CompareOp} {a b : AttributeValue} (refused : op.apply a b = .error r) :
    r.OfValues := by
  cases op with
  | eq => exact AttributeValue.equal_refused refused
  | ne => exact AttributeValue.equal_refused (map_eq_error.mp refused)
  | isIn => exact AttributeValue.contained_refused refused
  | _ => exact AttributeValue.ordered_refused refused

theorem Arithmetic.apply_refused {o : Operation} {a b : Value} (refused : o.apply a b = .error r) :
    r.OfValues := by
  unfold Operation.apply at refused
  split at refused
  · rename_i x y
    cases result : o.integer x y with
    | some n =>
      simp only [result, Option.map_some] at refused
      cases refused
    | none =>
      simp only [result, Option.map_none] at refused
      cases refused
      trivial
  · rename_i x y
    cases result : o.double x y with
    | some d =>
      simp only [result, Option.map_some] at refused
      cases refused
    | none =>
      simp only [result, Option.map_none] at refused
      cases refused
      trivial
  · cases refused
    exact ((((Unquoted.append (by decide) _).append _).append _).append _).append _

theorem Function.apply_refused {f : Function} {args : List AttributeValue}
    (refused : f.apply args = .error r) : r.OfValues := by
  unfold apply at refused
  split at refused
  · exact Arithmetic.apply_refused refused
  · exact Arithmetic.apply_refused refused
  · exact Arithmetic.apply_refused refused
  · exact Arithmetic.apply_refused refused
  · cases refused
  · cases refused
  · cases refused
  · cases refused
  · split at refused <;> cases refused
    exact ((Unquoted.append (by decide) _).append _).append _
  · cases refused
    exact ((f.name_unquoted.append _).append _).append _

theorem Reason.OfOperator.ofValues (operator : r.OfOperator) : r.OfValues := by
  cases operator with
  | truth refused => exact AttributeValue.truth_refused refused
  | compare refused => exact CompareOp.apply_refused refused
  | call refused => exact Function.apply_refused refused
  | presence => exact unquoted_presence

theorem Reason.OfOperator.undeclared (operator : r.OfOperator) (a : AttributeId) (v : AttributeValue) :
    Answer.check a v ≠ .error r := by
  intro unfit
  unfold Answer.check at unfit
  split at unfit <;> cases unfit
  obtain ⟨c, cs, chars, other⟩ : Unquoted _ := operator.ofValues
  simp only [String.toList_append, List.append_assoc] at chars
  cases chars
  exact other (by decide)

end

/-- An operator refuses its operands, or one of these attributes has no value, for this reason. -/
def Raises (val : Valuation) (as : List AttributeId) (r : Reason) : Prop :=
  r.OfOperator ∨ ∃ a ∈ as, val a = .error r

variable {val : Valuation} {r : Reason}

theorem Raises.mono {as bs : List AttributeId} (raises : Raises val as r) (within : as ⊆ bs) :
    Raises val bs r := by
  rcases raises with operator | ⟨a, member, failed⟩
  · exact .inl operator
  · exact .inr ⟨a, within member, failed⟩

namespace Expression

theorem mem_eagerAll {es : List Expression} {x : Except Reason AttributeValue}
    (member : x ∈ eagerAll val es) : ∃ e ∈ es, e.eager val = x := by
  induction es with
  | nil => cases member
  | cons e es ih =>
    rcases List.mem_cons.mp member with rfl | member
    · exact ⟨e, List.mem_cons_self, rfl⟩
    · obtain ⟨e', member, eager⟩ := ih member
      exact ⟨e', List.mem_cons_of_mem e member, eager⟩

theorem connect_error {settling : Bool} {ts : List (Except Reason Bool)}
    (failed : connect settling ts = .error r) : .error r ∈ ts := by
  unfold connect at failed
  split at failed
  · cases failed
  · split at failed
    · rename_i found
      cases failed
      obtain ⟨t, member, failure⟩ := List.exists_of_findSome?_eq_some found
      cases t with
      | ok b => cases failure
      | error r' =>
        cases failure
        exact member
    · cases failed

theorem collect_error {args : List (Except Reason AttributeValue)} (failed : collect args = .error r) :
    .error r ∈ args := by
  induction args with
  | nil => cases failed
  | cons x xs ih =>
    rw [collect_cons] at failed
    rcases bind_eq_error.mp failed with first | ⟨a, _, failed⟩
    · rw [first]
      exact List.mem_cons_self
    · rcases bind_eq_error.mp failed with rest | ⟨as, _, ⟨⟩⟩
      exact List.mem_cons_of_mem x (ih rest)

theorem presence_error {x : Except Reason AttributeValue} (failed : presence x = .error r) :
    x = .error r := by
  unfold presence at failed
  split at failed <;> cases failed
  rfl

theorem truth_raises {x : Except Reason AttributeValue} {as : List AttributeId}
    (each : x = .error r → Raises val as r) (failed : x.bind AttributeValue.truth = .error r) :
    Raises val as r := by
  rcases bind_eq_error.mp failed with first | ⟨v, _, refused⟩
  · exact each first
  · exact .inl (.truth refused)

theorem attributes_subset {e : Expression} {es : List Expression} (member : e ∈ es) :
    e.attributes ⊆ attributesOf es := fun _ inside => mem_attributesOf.mpr ⟨e, member, inside⟩

theorem eager_raises {e : Expression} (failed : e.eager val = .error r) : Raises val e.attributes r := by
  have operands (es : List Expression) (each : ∀ e ∈ es, e.eager val = .error r → Raises val e.attributes r)
      (settling : Bool)
      (failed : (connect settling ((eagerAll val es).map fun v => v.bind AttributeValue.truth)).map
        AttributeValue.ofBool = .error r) : Raises val (attributesOf es) r := by
    obtain ⟨x, operand, truth⟩ := List.mem_map.mp (connect_error (map_eq_error.mp failed))
    obtain ⟨e, member, rfl⟩ := mem_eagerAll operand
    exact (truth_raises (each e member) truth).mono (attributes_subset member)
  induction e with
  | literal v => cases failed
  | ref a => exact .inr ⟨a, List.mem_cons_self, failed⟩
  | compare op l r left right =>
    rw [compare_eager] at failed
    rcases bind_eq_error.mp failed with first | ⟨a, _, failed⟩
    · exact (left first).mono (List.subset_append_left _ _)
    · rcases bind_eq_error.mp failed with second | ⟨b, _, failed⟩
      · exact (right second).mono (List.subset_append_right _ _)
      · exact .inl (.compare (map_eq_error.mp failed))
  | and es each => exact operands es each false failed
  | or es each => exact operands es each true failed
  | not e operand => exact truth_raises operand (map_eq_error.mp failed)
  | call f es each =>
    by_cases test : f = .isPresent
    · subst test
      simp only [eager, if_true] at failed
      split at failed
      · rename_i a
        exact .inr ⟨a, List.mem_cons_self, presence_error (map_eq_error.mp failed)⟩
      · cases failed
        exact .inl .presence
    · rw [call_eager val test] at failed
      rcases bind_eq_error.mp failed with args | ⟨vs, _, refused⟩
      · obtain ⟨e, member, argument⟩ := mem_eagerAll (collect_error args)
        exact (each e member argument).mono (attributes_subset member)
      · exact .inl (.call refused)

theorem eagerIfPresent_raises {e : Option Expression} (failed : eagerIfPresent val e = .error r) :
    Raises val (attributesIfPresent e) r := by
  cases e with
  | none => cases failed
  | some e => exact truth_raises eager_raises failed

end Expression

end AccessControl
