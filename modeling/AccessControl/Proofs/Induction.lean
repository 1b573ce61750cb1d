import AccessControl.Policy.Basic

namespace AccessControl

@[elab_as_elim, induction_eliminator]
theorem Expression.induction {P : Expression → Prop}
    (literal : ∀ v, P (literal v)) (ref : ∀ a, P (ref a))
    (compare : ∀ op l r, P l → P r → P (compare op l r))
    (and : ∀ es, (∀ e ∈ es, P e) → P (and es)) (or : ∀ es, (∀ e ∈ es, P e) → P (or es))
    (not : ∀ e, P e → P (not e)) (call : ∀ f es, (∀ e ∈ es, P e) → P (call f es))
    (e : Expression) : P e :=
  @Expression.rec P (fun es => ∀ e ∈ es, P e) literal ref compare and or not call
    (fun _ member => absurd member List.not_mem_nil)
    (fun _ _ head tail => List.forall_mem_cons.mpr ⟨head, tail⟩) e

@[elab_as_elim, induction_eliminator]
theorem Policy.induction {P : Policy → Prop} (rule : ∀ r, P (rule r))
    (set : ∀ h ps, (∀ p ∈ ps, P p) → P (set h ps)) (p : Policy) : P p :=
  @Policy.rec P (fun ps => ∀ p ∈ ps, P p) rule set
    (fun _ member => absurd member List.not_mem_nil)
    (fun _ _ head tail => List.forall_mem_cons.mpr ⟨head, tail⟩) p

end AccessControl
