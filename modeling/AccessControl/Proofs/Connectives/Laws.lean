import AccessControl.Proofs.Connectives.Order

namespace AccessControl.Expression

/-- The expressions give the same value or the same reason everywhere, and leave the same cache with the
same calls and counters. -/
structure Equivalent (e e' : Expression) : Prop where
  value : ∀ ctx, e.value ctx = e'.value ctx
  holds : ∀ ctx, e.holds ctx = e'.holds ctx

/-- How a connective goes on behind operands that have come to this. -/
def onward (settling : Bool) (rest : Cache → Except Reason Bool × Cache) :
    Except Reason Bool → Cache → Except Reason Bool × Cache
  | .ok b => if b = settling then fun c => (.ok settling, c) else rest
  | .error r => fun c => (past settling r (rest c).1, (rest c).2)

theorem past_past (settling : Bool) (r r' : Reason) (x : Except Reason Bool) :
    past settling r (past settling r' x) = past settling r x := by
  cases x with
  | error e => rfl
  | ok b => by_cases settles : b = settling <;> simp [past, settles]

theorem onward_andThen (settling : Bool) (middle rest : Cache → Except Reason Bool × Cache)
    (t : Except Reason Bool) :
    onward settling (Cache.andThen middle (onward settling rest)) t =
      Cache.andThen (onward settling middle t) (onward settling rest) := by
  funext c
  cases t with
  | ok b =>
    by_cases settles : b = settling
    · simp only [onward, settles, if_true, Cache.andThen]
    · simp only [onward, settles, if_false]
  | error r =>
    simp only [onward, Cache.andThen]
    rcases middle c with ⟨r' | b, d⟩
    · exact congrArg (·, (rest d).2) (past_past settling r r' (rest d).1)
    · by_cases settles : b = settling <;> simp [past, settles]

variable (ctx : Context) (settling : Bool)

theorem connective_eq_onward (e : Expression) (es : List Expression) :
    connective ctx settling (e :: es) =
      Cache.andThen (e.holds ctx) (onward settling (connective ctx settling es)) := by
  rw [connective_cons]
  funext c
  simp only [Cache.andThen, holds]
  cases (e.value ctx c).1.bind AttributeValue.truth <;> rfl

theorem connective_append (es fs : List Expression) :
    connective ctx settling (es ++ fs) =
      Cache.andThen (connective ctx settling es) (onward settling (connective ctx settling fs)) := by
  induction es with
  | nil =>
    funext c
    simp [connective, Cache.andThen, onward]
  | cons e es ih =>
    funext c
    rw [List.cons_append, connective_eq_onward, connective_eq_onward, ih]
    simp only [Cache.andThen, onward_andThen]

theorem connective_nested {e : Expression} {ys : List Expression}
    (nested : e.holds ctx = connective ctx settling ys) (xs zs : List Expression) :
    connective ctx settling (xs ++ e :: zs) = connective ctx settling (xs ++ ys ++ zs) := by
  rw [List.append_assoc, connective_append, connective_eq_onward, nested, connective_append ctx settling xs,
    connective_append ctx settling ys]

theorem past_not (r : Reason) (x : Except Reason Bool) :
    past (!settling) r (x.map (!·)) = (past settling r x).map (!·) := by
  cases x with
  | error e => rfl
  | ok b => cases b <;> cases settling <;> rfl

theorem onward_not (rest rest' : Cache → Except Reason Bool × Cache)
    (dual : ∀ c, rest' c = ((rest c).1.map (!·), (rest c).2)) (t : Except Reason Bool) (c : Cache) :
    onward (!settling) rest' (t.map (!·)) c =
      ((onward settling rest t c).1.map (!·), (onward settling rest t c).2) := by
  cases t with
  | ok b => cases b <;> cases settling <;> simp [onward, Except.map, dual]
  | error r =>
    simp only [onward, dual]
    exact congrArg (·, (rest c).2) (past_not settling r (rest c).1)

theorem connective_not (es : List Expression) (c : Cache) :
    connective ctx (!settling) (es.map not) c =
      ((connective ctx settling es c).1.map (!·), (connective ctx settling es c).2) := by
  induction es generalizing c with
  | nil => rfl
  | cons e es ih =>
    rw [List.map_cons, connective_eq_onward, connective_eq_onward]
    simp only [Cache.andThen, holds_not]
    exact onward_not settling _ _ ih _ _

/-- A truth of its own: the value of the expression is its truth as a condition. -/
def Logical : Expression → Prop
  | and _ => True
  | or _ => True
  | not _ => True
  | _ => False

theorem Logical.value_eq {e : Expression} (logical : e.Logical) (c : Cache) :
    e.value ctx c = ((e.holds ctx c).1.map .ofBool, (e.holds ctx c).2) := by
  cases e with
  | and es => simp only [holds_and, value]
  | or es => simp only [holds_or, value]
  | not e =>
    simp only [value, holds]
    cases (e.value ctx c).1.bind AttributeValue.truth <;> rfl
  | _ => exact logical.elim

theorem Equivalent.of_holds {e e' : Expression} (logical : e.Logical) (logical' : e'.Logical)
    (same : ∀ ctx, e.holds ctx = e'.holds ctx) : Equivalent e e' where
  value ctx := by
    funext c
    rw [logical.value_eq, logical'.value_eq, same]
  holds := same

theorem not_and_equivalent (es : List Expression) : Equivalent (not (and es)) (or (es.map not)) := by
  refine .of_holds trivial trivial fun ctx => ?_
  funext c
  rw [holds_not, holds_and, holds_or]
  exact (connective_not ctx false es c).symm

theorem not_or_equivalent (es : List Expression) : Equivalent (not (or es)) (and (es.map not)) := by
  refine .of_holds trivial trivial fun ctx => ?_
  funext c
  rw [holds_not, holds_and, holds_or]
  exact (connective_not ctx true es c).symm

theorem and_nested_equivalent (xs ys zs : List Expression) :
    Equivalent (and (xs ++ and ys :: zs)) (and (xs ++ ys ++ zs)) := by
  refine .of_holds trivial trivial fun ctx => ?_
  rw [holds_and, holds_and]
  exact connective_nested ctx false (holds_and ctx ys) xs zs

theorem or_nested_equivalent (xs ys zs : List Expression) :
    Equivalent (or (xs ++ or ys :: zs)) (or (xs ++ ys ++ zs)) := by
  refine .of_holds trivial trivial fun ctx => ?_
  rw [holds_or, holds_or]
  exact connective_nested ctx true (holds_or ctx ys) xs zs

/-- De Morgan's laws and flattening are exact in any context and from any cache: the value, the reason,
the cache, its counters and its calls are the same. Operands in another order, at any depth, keep the
value and whether there is one when the answer of the resolver depends on the attribute alone. -/
theorem connective_laws :
    (∀ es, Equivalent (not (and es)) (or (es.map not)) ∧ Equivalent (not (or es)) (and (es.map not))) ∧
    (∀ xs ys zs, Equivalent (and (xs ++ and ys :: zs)) (and (xs ++ ys ++ zs)) ∧
      Equivalent (or (xs ++ or ys :: zs)) (or (xs ++ ys ++ zs))) ∧
    ∀ e e', Reordered e e' → ∀ (r : Request)
      (f : AttributeId → Except ResolverError (Option AttributeValue)) (c : Cache),
      (e.holds ⟨r, .ofFunction f⟩ c).1.toOption = (e'.holds ⟨r, .ofFunction f⟩ c).1.toOption ∧
      (e.value ⟨r, .ofFunction f⟩ c).1.toOption = (e'.value ⟨r, .ofFunction f⟩ c).1.toOption := by
  refine ⟨fun es => ?_, fun xs ys zs => ?_, fun e e' reordered r f c => ?_⟩
  · exact ⟨not_and_equivalent es, not_or_equivalent es⟩
  · exact ⟨and_nested_equivalent xs ys zs, or_nested_equivalent xs ys zs⟩
  · exact ⟨reordered.holds_toOption r f c, reordered.value_toOption r f c⟩

theorem connective_laws_public :
    let owner : AttributeId := ⟨.subject, "owner", .boolean, .single⟩
    let editor : AttributeId := ⟨.subject, "editor", .boolean, .single⟩
    let isPublic : AttributeId := ⟨.resource, "public", .boolean, .single⟩
    let e : Expression := .and [.ref owner, .or [.ref editor, .ref isPublic]]
    let e' : Expression := .and [.or [.ref isPublic, .ref editor], .ref owner]
    let r : Request := .new "alice" "view" "doc123" ⟨2025, 1, 8, 10, 0, 0, 0, by decide⟩
    let f (a : AttributeId) : Except ResolverError (Option AttributeValue) :=
      if a = editor then .error (.unavailable "offline") else .ok (some (.ofBool true))
    let before := e.holds ⟨r, .ofFunction f⟩ .empty
    let after := e'.holds ⟨r, .ofFunction f⟩ .empty
    e.Reordered e' ∧ before.1.toOption = after.1.toOption ∧ before.1 = .ok true ∧
      before.2.calls = [owner, editor, isPublic] ∧ after.2.calls = [isPublic, owner] := by
  intro owner editor isPublic e e' r f before after
  have inner : e.Reordered (.and [.ref owner, .or [.ref isPublic, .ref editor]]) :=
    .conjunct [.ref owner] [] (.permuteOr (.swap _ _ _))
  have reordered : e.Reordered e' := .trans inner (.permuteAnd (.swap _ _ _))
  exact ⟨reordered, (connective_laws.2.2 e e' reordered r f .empty).1, rfl, rfl, rfl⟩

end AccessControl.Expression
