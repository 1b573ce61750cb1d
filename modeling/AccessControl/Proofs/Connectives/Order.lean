import AccessControl.Proofs.Connectives.Truth

namespace AccessControl

section

variable {α β : Type}

theorem toOption_bind (x : Except Reason α) (f : α → Except Reason β) :
    (x.bind f).toOption = x.toOption.bind fun a => (f a).toOption := by
  cases x <;> rfl

theorem toOption_map (x : Except Reason α) (f : α → β) : (x.map f).toOption = x.toOption.map f := by
  cases x <;> rfl

end

namespace Expression

/-- One expression comes from the other by permuting the operands of connectives, at any depth. -/
inductive Reordered : Expression → Expression → Prop where
  | refl (e : Expression) : Reordered e e
  | trans {e e' e'' : Expression} (first : Reordered e e') (second : Reordered e' e'') : Reordered e e''
  | permuteAnd {es fs : List Expression} (perm : es.Perm fs) : Reordered (and es) (and fs)
  | permuteOr {es fs : List Expression} (perm : es.Perm fs) : Reordered (or es) (or fs)
  | left (op : CompareOp) (r : Expression) {l l' : Expression} (below : Reordered l l') :
    Reordered (compare op l r) (compare op l' r)
  | right (op : CompareOp) (l : Expression) {r r' : Expression} (below : Reordered r r') :
    Reordered (compare op l r) (compare op l r')
  | conjunct (before after : List Expression) {e e' : Expression} (below : Reordered e e') :
    Reordered (and (before ++ e :: after)) (and (before ++ e' :: after))
  | disjunct (before after : List Expression) {e e' : Expression} (below : Reordered e e') :
    Reordered (or (before ++ e :: after)) (or (before ++ e' :: after))
  | not {e e' : Expression} (below : Reordered e e') : Reordered (not e) (not e')
  | argument (f : Function) (before after : List Expression) {e e' : Expression} (below : Reordered e e') :
    Reordered (call f (before ++ e :: after)) (call f (before ++ e' :: after))

/-- Whether a connective has a truth, and which one, by the truths of its operands in any order. -/
def kleene (settling : Bool) (ts : List (Option Bool)) : Option Bool :=
  if some settling ∈ ts then some settling else if none ∈ ts then none else some !settling

theorem kleene_congr (settling : Bool) {ts ts' : List (Option Bool)} (same : ∀ t, t ∈ ts ↔ t ∈ ts') :
    kleene settling ts = kleene settling ts' := by
  simp only [kleene, same]

theorem any_isTruth {settling : Bool} {ts : List (Except Reason Bool)} :
    ts.any (isTruth settling) = true ↔ some settling ∈ ts.map Except.toOption := by
  rw [List.any_eq_true, List.mem_map]
  refine exists_congr fun t => and_congr_right fun _ => ?_
  cases t <;> simp [isTruth, Except.toOption]

theorem findSome?_failure {ts : List (Except Reason Bool)} :
    ts.findSome? failure? = none ↔ none ∉ ts.map Except.toOption := by
  rw [List.findSome?_eq_none_iff, List.mem_map, not_exists]
  refine forall_congr' fun t => ?_
  cases t <;> simp [failure?, Except.toOption]

theorem connect_toOption (settling : Bool) (ts : List (Except Reason Bool)) :
    (connect settling ts).toOption = kleene settling (ts.map Except.toOption) := by
  unfold connect kleene
  by_cases settled : some settling ∈ ts.map Except.toOption
  · rw [if_pos (any_isTruth.mpr settled), if_pos settled]
    rfl
  · rw [if_neg (mt any_isTruth.mp settled), if_neg settled]
    cases failed : ts.findSome? failure? with
    | none =>
      rw [if_neg (findSome?_failure.mp failed)]
      rfl
    | some r =>
      have failure : none ∈ ts.map Except.toOption := by
        by_contra whole
        rw [findSome?_failure.mpr whole] at failed
        cases failed
      rw [if_pos failure]
      rfl

theorem collect_toOption (vs : List (Except Reason AttributeValue)) :
    (collect vs).toOption = (vs.map Except.toOption).mapM id := by
  induction vs with
  | nil => rfl
  | cons v vs ih =>
    rw [collect_cons, List.map_cons, List.mapM_cons, toOption_bind]
    simp only [toOption_bind, ih]
    rfl

section

variable {val : Valuation} {e e' : Expression}

theorem eagerTruth_toOption (same : (e.eager val).toOption = (e'.eager val).toOption) :
    (e.eagerTruth val).toOption = (e'.eagerTruth val).toOption := by
  rw [eagerTruth, eagerTruth, toOption_bind, toOption_bind, same]

theorem Reordered.ref_iff (reordered : Reordered e e') (a : AttributeId) : e = ref a ↔ e' = ref a := by
  induction reordered with
  | refl e => exact .rfl
  | trans _ _ first second => exact first.trans second
  | _ => exact ⟨nofun, nofun⟩

theorem Reordered.single_iff (reordered : Reordered e e') (before after : List Expression)
    (a : AttributeId) : before ++ e :: after = [ref a] ↔ before ++ e' :: after = [ref a] := by
  cases before <;> simp [reordered.ref_iff a]

theorem connect_truths_toOption (settling : Bool) (es : List Expression) :
    (connect settling ((eagerAll val es).map fun v => v.bind AttributeValue.truth)).toOption =
      kleene settling (es.map fun e => (e.eagerTruth val).toOption) := by
  rw [truths_eq_map, connect_toOption, List.map_map]
  rfl

theorem eager_and_toOption (es : List Expression) : ((and es).eager val).toOption =
    (kleene false (es.map fun e => (e.eagerTruth val).toOption)).map .ofBool := by
  rw [eager, toOption_map, connect_truths_toOption]

theorem eager_or_toOption (es : List Expression) : ((or es).eager val).toOption =
    (kleene true (es.map fun e => (e.eagerTruth val).toOption)).map .ofBool := by
  rw [eager, toOption_map, connect_truths_toOption]

theorem eager_call_toOption {f : Function} (other : f ≠ .isPresent) (es : List Expression) :
    ((call f es).eager val).toOption =
      ((es.map fun e => (eager val e).toOption).mapM id).bind fun vs => (f.apply vs).toOption := by
  rw [call_eager val other, toOption_bind, collect_toOption, eagerAll_eq_map, List.map_map]
  rfl

theorem Reordered.eager_toOption (reordered : Reordered e e') :
    (e.eager val).toOption = (e'.eager val).toOption := by
  induction reordered with
  | refl e => rfl
  | trans _ _ first second => exact first.trans second
  | permuteAnd perm =>
    rw [eager_and_toOption, eager_and_toOption, kleene_congr false fun t => (perm.map _).mem_iff]
  | permuteOr perm =>
    rw [eager_or_toOption, eager_or_toOption, kleene_congr true fun t => (perm.map _).mem_iff]
  | left op r _ same => simp only [compare_eager, toOption_bind, same]
  | right op l _ same => simp only [compare_eager, toOption_bind, same]
  | conjunct before after _ same =>
    simp only [eager_and_toOption, List.map_append, List.map_cons, eagerTruth_toOption same]
  | disjunct before after _ same =>
    simp only [eager_or_toOption, List.map_append, List.map_cons, eagerTruth_toOption same]
  | not _ same => simp only [eager, toOption_map, toOption_bind, same]
  | @argument f before after e e' below same =>
    by_cases test : f = .isPresent
    · subst test
      by_cases single : ∃ a, before ++ e :: after = [ref a]
      · obtain ⟨a, single⟩ := single
        rw [single, (below.single_iff before after a).mp single]
      · have single' : ¬∃ a, before ++ e' :: after = [ref a] :=
          mt (exists_congr fun a => below.single_iff before after a).mpr single
        rw [presence_eager_malformed val single, presence_eager_malformed val single']
    · simp only [eager_call_toOption test, List.map_append, List.map_cons, same]

end

section

variable (r : Request) (f : AttributeId → Except ResolverError (Option AttributeValue)) (c : Cache)

theorem value_ofFunction (e : Expression) : (e.value ⟨r, .ofFunction f⟩ c).1 =
    e.eager (r.read (c.outlook ⟨r, .ofFunction f⟩)) := by
  have reads : Cache.Reads (c.outlook ⟨r, .ofFunction f⟩) ⟨r, .ofFunction f⟩ _ _ _ := e.value_reads
  refine reads.result c ?_
  rw [← Cache.outlook_trace_ofFunction (reads.trace c)]
  exact Cache.agrees_outlook _ _

variable {e e' : Expression}

theorem Reordered.value_toOption (reordered : Reordered e e') :
    (e.value ⟨r, .ofFunction f⟩ c).1.toOption = (e'.value ⟨r, .ofFunction f⟩ c).1.toOption := by
  rw [value_ofFunction, value_ofFunction, reordered.eager_toOption]

theorem Reordered.holds_toOption (reordered : Reordered e e') :
    (e.holds ⟨r, .ofFunction f⟩ c).1.toOption = (e'.holds ⟨r, .ofFunction f⟩ c).1.toOption := by
  simp only [holds, toOption_bind, reordered.value_toOption r f c]

end

end Expression

end AccessControl
