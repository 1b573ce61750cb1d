import AccessControl.Proofs.Combine.Related
import AccessControl.Proofs.Eager.Expression

namespace AccessControl

inductive Interchanged : Except ResolverError (Option AttributeValue) →
    Except ResolverError (Option AttributeValue) → Prop where
  | same (x : Except ResolverError (Option AttributeValue)) : Interchanged x x
  | missing (e : ResolverError) : Interchanged (.error e) (.ok none)
  | failed (e : ResolverError) : Interchanged (.ok none) (.error e)

/-- The same reason, but that an attribute may be missing in one and its source have failed in the
other. -/
inductive Reason.Akin : Reason → Reason → Prop where
  | same (r : Reason) : Akin r r
  | missing (name message : String) : Akin (.resolverFailure name message) (.missingAttribute name)
  | failed (name message : String) : Akin (.missingAttribute name) (.resolverFailure name message)
  | obligation (id : String) {r r' : Reason} :
    Akin r r' → Akin (.obligationFailed id r) (.obligationFailed id r')

inductive Answer.Akin : Answer → Answer → Prop where
  | same (x : Answer) : Akin x x
  | missing (message : String) : Akin (.failed message) .missing
  | failed (message : String) : Akin .missing (.failed message)

inductive Akin {α : Type} : Except Reason α → Except Reason α → Prop where
  | ok (a : α) : Akin (.ok a) (.ok a)
  | error {r r' : Reason} : r.Akin r' → Akin (.error r) (.error r')

namespace Akin

variable {α β : Type} {x x' : Except Reason α}

theorem refl (x : Except Reason α) : Akin x x := by
  cases x with
  | ok a => exact .ok a
  | error r => exact .error (.same r)

theorem bind (akin : Akin x x') (f : α → Except Reason β) : Akin (x.bind f) (x'.bind f) := by
  cases akin with
  | ok a => exact .refl (f a)
  | error reasons => exact .error reasons

theorem map (akin : Akin x x') (f : α → β) : Akin (x.map f) (x'.map f) := by
  cases akin with
  | ok a => exact .ok (f a)
  | error reasons => exact .error reasons

end Akin

theorem Answer.Akin.of_interchanged {x y : Except ResolverError (Option AttributeValue)}
    (interchanged : Interchanged x y) : (Answer.ofResolver x).Akin (.ofResolver y) := by
  cases interchanged with
  | same => exact .same _
  | missing e => exact .missing _
  | failed e => exact .failed _

theorem Answer.Akin.value {x y : Answer} (akin : x.Akin y) (a : AttributeId) :
    AccessControl.Akin (x.value a) (y.value a) := by
  cases akin with
  | same => exact .refl _
  | missing message => exact .error (.missing _ message)
  | failed message => exact .error (.failed _ message)

namespace Cache

/-- Caches that answer the same attributes with akin answers, at the same cost and after the same
calls. -/
structure Akin (c c' : Cache) : Prop where
  answers : List.Forall₂ (fun x y => x.1 = y.1 ∧ x.2.Akin y.2) c.answers c'.answers
  stats : c.stats = c'.stats
  calls : c.calls = c'.calls

theorem Akin.lookup {c c' : Cache} (akin : c.Akin c') (a : AttributeId) :
    Option.Rel Answer.Akin (c.answers.lookup a) (c'.answers.lookup a) := by
  have answers := akin.answers
  generalize c.answers = xs, c'.answers = ys at answers ⊢
  induction answers with
  | nil => exact .none
  | @cons x y xs ys head _ ih =>
    obtain ⟨key, answer⟩ := head
    rw [List.lookup_cons, List.lookup_cons, key]
    cases a == y.1 with
    | true => exact .some answer
    | false => exact ih

theorem Akin.visitNode {c c' : Cache} (akin : c.Akin c') : c.visitNode.Akin c'.visitNode :=
  ⟨akin.answers, by rw [Cache.visitNode, Cache.visitNode, akin.stats], akin.calls⟩

theorem Akin.hit {c c' : Cache} (akin : c.Akin c') : c.hit.Akin c'.hit :=
  ⟨akin.answers, by rw [Cache.hit, Cache.hit, akin.stats], akin.calls⟩

theorem Akin.learn {c c' : Cache} (akin : c.Akin c') (a : AttributeId) {x y : Answer} (answers : x.Akin y) :
    (c.learn a x).Akin (c'.learn a y) :=
  ⟨.cons ⟨rfl, answers⟩ akin.answers, by rw [Cache.learn, Cache.learn, akin.stats],
    by rw [Cache.learn, Cache.learn, akin.calls]⟩

/-- From akin caches the evaluations have related results and leave akin caches. -/
def InStep {α : Type} (R : α → α → Prop) (f f' : Cache → α × Cache) : Prop :=
  ∀ c c' : Cache, c.Akin c' → R (f c).1 (f' c').1 ∧ (f c).2.Akin (f' c').2

namespace InStep

variable {α β : Type} {R : α → α → Prop} {S : β → β → Prop} {f f' : Cache → α × Cache}

theorem skip {a a' : α} (related : R a a') : InStep R (fun c => (a, c)) (fun c => (a', c)) :=
  fun _ _ akin => ⟨related, akin⟩

theorem visit (inStep : InStep R f f') : InStep R (fun c => f c.visitNode) (fun c => f' c.visitNode) :=
  fun _ _ akin => inStep _ _ akin.visitNode

theorem map (inStep : InStep R f f') (h h' : α → β) (related : ∀ a a', R a a' → S (h a) (h' a')) :
    InStep S (fun c => (h (f c).1, (f c).2)) (fun c => (h' (f' c).1, (f' c).2)) := by
  intro c c' akin
  obtain ⟨results, caches⟩ := inStep c c' akin
  exact ⟨related _ _ results, caches⟩

theorem andThen {g g' : α → Cache → β × Cache} (first : InStep R f f')
    (second : ∀ a a', R a a' → InStep S (g a) (g' a')) : InStep S (andThen f g) (andThen f' g') := by
  intro c c' akin
  obtain ⟨results, caches⟩ := first c c' akin
  exact second _ _ results _ _ caches

theorem bind {f f' : Cache → Except Reason α × Cache} {g g' : α → Cache → Except Reason β × Cache}
    (first : InStep AccessControl.Akin f f') (second : ∀ a, InStep AccessControl.Akin (g a) (g' a)) :
    InStep AccessControl.Akin (bind f g) (bind f' g') := by
  rw [bind_eq_andThen, bind_eq_andThen]
  refine first.andThen fun x x' akin => ?_
  cases akin with
  | ok a => exact second a
  | error reasons => exact skip (.error reasons)

end InStep

end Cache

structure Context.Akin (ctx ctx' : Context) : Prop where
  request : ctx.request = ctx'.request
  answers : ∀ calls a, Interchanged (ctx.resolver ctx.request calls a) (ctx'.resolver ctx'.request calls a)

variable {ctx ctx' : Context}

open Cache (InStep)

theorem Cache.lookup_inStep (akin : ctx.Akin ctx') (a : AttributeId) :
    InStep AccessControl.Akin (fun c => c.lookup ctx a) (fun c => c.lookup ctx' a) := by
  intro c c' caches
  have bindings : ctx.request.get? a = ctx'.request.get? a := by rw [akin.request]
  simp only [Cache.lookup, bindings]
  cases ctx'.request.get? a with
  | some v => exact ⟨.refl _, caches⟩
  | none =>
    have known := caches.lookup a
    generalize c.answers.lookup a = x, c'.answers.lookup a = y at known ⊢
    cases known with
    | some answers => exact ⟨answers.value a, caches.hit⟩
    | none =>
      have answers := Answer.Akin.of_interchanged (akin.answers c.calls a)
      rw [caches.calls] at answers ⊢
      exact ⟨answers.value a, caches.learn a answers⟩

namespace Expression

theorem past_akin (settling : Bool) {r r' : Reason} (reasons : r.Akin r') {x x' : Except Reason Bool}
    (akin : Akin x x') : Akin (past settling r x) (past settling r' x') := by
  cases akin with
  | ok b =>
    simp only [past]
    split
    · exact .ok settling
    · exact .error reasons
  | error _ => exact .error reasons

theorem presence_akin {x x' : Except Reason AttributeValue} (akin : Akin x x') :
    Akin (presence x) (presence x') := by
  cases akin with
  | ok v => exact .ok true
  | error reasons =>
    cases reasons with
    | same r => exact .refl _
    | missing name message => exact .ok false
    | failed name message => exact .ok false
    | obligation id reasons => exact .error (.obligation id reasons)

theorem connective_inStep (settling : Bool) (es : List Expression)
    (each : ∀ e ∈ es, InStep Akin (e.value ctx) (e.value ctx')) :
    InStep Akin (connective ctx settling es) (connective ctx' settling es) := by
  induction es with
  | nil => exact .skip (.ok !settling)
  | cons e es ih =>
    obtain ⟨head, tail⟩ := List.forall_mem_cons.mp each
    have rest := ih tail
    rw [connective_cons, connective_cons]
    refine head.andThen fun v v' akin => ?_
    have truths := akin.bind AttributeValue.truth
    generalize v.bind AttributeValue.truth = t, v'.bind AttributeValue.truth = t' at truths ⊢
    cases truths with
    | ok b =>
      by_cases settles : b = settling
      · simp only [settles, if_true]
        exact .skip (.ok settling)
      · simp only [settles, if_false]
        exact rest
    | error reasons => exact rest.map _ _ fun _ _ akin => past_akin settling reasons akin

theorem values_inStep (es : List Expression) (each : ∀ e ∈ es, InStep Akin (e.value ctx) (e.value ctx')) :
    InStep Akin (values ctx es) (values ctx' es) := by
  induction es with
  | nil => exact .skip (.ok [])
  | cons e es ih =>
    obtain ⟨head, tail⟩ := List.forall_mem_cons.mp each
    rw [values_cons, values_cons]
    exact head.bind fun v => (ih tail).bind fun vs => .skip (.ok (v :: vs))

theorem value_inStep (akin : ctx.Akin ctx') (e : Expression) :
    InStep Akin (e.value ctx) (e.value ctx') := by
  induction e with
  | literal v => exact .skip (.ok v)
  | ref a => exact Cache.lookup_inStep akin a
  | compare op l r left right =>
    rw [value_compare, value_compare]
    exact left.bind fun a => right.bind fun b => .skip (.refl _)
  | and es each =>
    exact (connective_inStep false es each).map _ _ fun _ _ akin => akin.map AttributeValue.ofBool
  | or es each =>
    exact (connective_inStep true es each).map _ _ fun _ _ akin => akin.map AttributeValue.ofBool
  | not e operand =>
    exact operand.map _ _ fun _ _ akin =>
      (akin.bind AttributeValue.truth).map fun b => AttributeValue.ofBool !b
  | call f es each =>
    by_cases test : f = .isPresent
    · subst test
      by_cases single : ∃ a, es = [ref a]
      · obtain ⟨a, rfl⟩ := single
        rw [funext (value_presence ctx a), funext (value_presence ctx' a)]
        exact (Cache.lookup_inStep akin a).map _ _ fun _ _ akin =>
          (presence_akin akin).map AttributeValue.ofBool
      · rw [funext (value_presence_malformed ctx single), funext (value_presence_malformed ctx' single)]
        exact .skip (.refl _)
    · rw [value_call ctx test, value_call ctx' test]
      exact (values_inStep es each).bind fun vs => .skip (.refl _)

end Expression

end AccessControl
