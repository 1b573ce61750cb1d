import AccessControl.Proofs.Extent.Possible
import AccessControl.Proofs.Nodes
import AccessControl.Proofs.Stability.Combine
import AccessControl.Proofs.Stability.Expression

namespace AccessControl

namespace Policy

/-- Every set narrows with its children, and no expression on the way to a decision tests for
presence. -/
structure Narrowing (p : Policy) : Prop where
  algorithms : ∀ h ps, set h ps ∈ p.nodes → h.algorithm ∈ Algorithm.narrowing
  targets : ∀ q ∈ p.nodes, ∀ e ∈ q.target, .isPresent ∉ e.functions
  conditions : ∀ q ∈ p.nodes, ∀ e ∈ q.condition, .isPresent ∉ e.functions

theorem Narrowing.child {h : SetHeader} {ps : List Policy} (narrowing : (set h ps).Narrowing) {p : Policy}
    (member : p ∈ ps) : p.Narrowing := by
  have below : p.nodes ⊆ (set h ps).nodes := child_nodes_subset member
  exact ⟨fun h ps node => narrowing.algorithms h ps (below node),
    fun q node => narrowing.targets q (below node), fun q node => narrowing.conditions q (below node)⟩

end Policy

open Expression (eagerIfPresent eagerIfPresent_stays)

variable {env env' : Valuation}

theorem Rule.outcome_narrows (r : Rule) {b b' : Except Reason Bool} (stays : Stays b b') :
    (r.outcome b).Narrows (r.outcome b') := by
  cases b with
  | error reason =>
    exact .of_failed (fun e leans => Extent.ofEffect_covers.mpr (Rule.outcome_leans leans)) reason
  | ok b =>
    rw [stays b rfl]
    exact .refl _

theorem Rule.eager_narrows (informed : ∀ a, Stays (env a) (env' a)) (r : Rule)
    (target : ∀ e ∈ r.target, .isPresent ∉ e.functions)
    (condition : ∀ e ∈ r.condition, .isPresent ∉ e.functions) : (r.eager env).Narrows (r.eager env') := by
  apply r.outcome_narrows
  apply (eagerIfPresent_stays informed r.target target).bind
  intro b
  cases b with
  | false => exact .refl _
  | true => exact eagerIfPresent_stays informed r.condition condition

namespace Policy

theorem eagerAll_narrows {ps : List Policy} (each : ∀ p ∈ ps, (p.eager env).Narrows (p.eager env')) :
    List.Forall₂ Outcome.Narrows (eagerAll env ps) (eagerAll env' ps) := by
  induction ps with
  | nil => exact .nil
  | cons p ps ih =>
    obtain ⟨head, tail⟩ := List.forall_mem_cons.mp each
    exact .cons head (ih tail)

theorem targetFailure_narrows (p : Policy) (r : Reason) : (targetFailure p r).Narrows (p.eager env) := by
  constructor
  · intro e decided
    unfold targetFailure at decided
    split at decided
    all_goals cases e <;> cases decided
  · intro e leans
    exact targetFailure_leans.mpr (eager_leans leans)

theorem eager_narrows (informed : ∀ a, Stays (env a) (env' a)) (p : Policy) (narrowing : p.Narrowing) :
    (p.eager env).Narrows (p.eager env') := by
  induction p with
  | rule r =>
    have node := mem_nodes (rule r)
    exact r.eager_narrows informed (narrowing.targets _ node) (narrowing.conditions _ node)
  | set h ps each =>
    have node := mem_nodes (set h ps)
    have target := eagerIfPresent_stays informed h.target (narrowing.targets _ node)
    cases first : eagerIfPresent env h.target with
    | error reason =>
      have failed := @targetFailure_narrows env' (set h ps) reason
      rw [eager_set, first]
      exact failed
    | ok b =>
      rw [eager_set, eager_set, first, target b first]
      cases b with
      | false => exact .refl _
      | true =>
        have children := eagerAll_narrows fun p member => each p member (narrowing.child member)
        have combined := Algorithm.table_narrows (narrowing.algorithms h ps node) h.id children
        simp only [targeted, Outcome.Narrows, h.addObligations_decision]
        exact combined

end Policy

theorem Request.read_stays (r : Request) {f g : AttributeId → Except ResolverError (Option AttributeValue)}
    (known : ∀ a v, f a = .ok (some v) → g a = .ok (some v)) (a : AttributeId) :
    Stays (r.read (.ofFunction f) a) (r.read (.ofFunction g) a) := by
  unfold Request.read
  cases r.get? a with
  | some v => exact .refl _
  | none =>
    intro w ok
    simp only [Snapshot.ofFunction] at ok ⊢
    cases answer : f a with
    | error e =>
      rw [answer] at ok
      cases ok
    | ok found =>
      cases found with
      | none =>
        rw [answer] at ok
        cases ok
      | some v =>
        rw [known a v answer, ← answer]
        exact ok

/-- A decision that is no failure stays; a failure turns out to be not applicable, an effect that its
extent covers, or a failure with a smaller extent. -/
structure Decision.Becomes (d d' : Decision) : Prop where
  settled : (∀ x r, d ≠ .indeterminate x r) → d' = d
  failed : ∀ x r, d = .indeterminate x r → d' = .notApplicable ∨ (∃ e, d' = .ofEffect e ∧ x.Covers e) ∨
    ∃ y r', d' = .indeterminate y r' ∧ ∀ e, y.Covers e → x.Covers e

theorem Decision.Narrows.becomes {d d' : Decision} (narrows : d.Narrows d') : d.Becomes d' where
  settled settled := by
    rcases d.kinds with silent | ⟨e, decided⟩ | ⟨x, r, failed⟩
    · rw [narrows.notApplicable silent, silent]
    · rw [narrows.decided e decided, decided]
    · exact absurd failed (settled x r)
  failed x r failed := by
    have within (e : Effect) (leans : d'.Leans e) : x.Covers e := by
      have before := narrows.leans e leans
      rwa [failed, indeterminate_leans] at before
    rcases d'.kinds with silent | ⟨e, rfl⟩ | ⟨y, r', rfl⟩
    · exact .inl silent
    · exact .inr (.inl ⟨e, rfl, within e (ofEffect_leans.mpr rfl)⟩)
    · exact .inr (.inr ⟨y, r', rfl, fun e covers => within e (indeterminate_leans.mpr covers)⟩)

/-- With a resolver that gives the same values and answers more besides, decisions stay and failures
turn out to be what their extents cover. -/
theorem Policy.evaluate_becomes (r : Request)
    (f g : AttributeId → Except ResolverError (Option AttributeValue))
    (known : ∀ a v, f a = .ok (some v) → g a = .ok (some v)) (p : Policy) (narrowing : p.Narrowing) :
    (p.evaluate ⟨r, .ofFunction f⟩ .empty).1.decision.Becomes
      (p.evaluate ⟨r, .ofFunction g⟩ .empty).1.decision := by
  rw [p.evaluate_ofFunction, p.evaluate_ofFunction]
  exact (p.eager_narrows (r.read_stays known) narrowing).becomes

theorem Policy.evaluate_becomes_owner :
    let owner : AttributeId := ⟨.subject, "owner", .boolean, .single⟩
    let suspended : AttributeId := ⟨.subject, "suspended", .boolean, .single⟩
    let permit : Policy := .rule ⟨"owner", some (.ref owner), none, .permit, []⟩
    let deny : Policy := .rule ⟨"suspended", some (.ref suspended), none, .deny, []⟩
    let p : Policy := .set ⟨"documents", none, .denyOverrides, []⟩ [permit, deny]
    let request : Request := ⟨"alice", "view", "doc123", ⟨2024, 1, 1, 0, 0, 0, 0, by decide⟩, []⟩
    let before : Decision := (p.evaluate ⟨request, .ofFunction fun a =>
      if a = owner then .ok (some (.ofBool true)) else .error (.unavailable "offline")⟩ .empty).1.decision
    let after : Decision := (p.evaluate ⟨request, .ofFunction fun a =>
      .ok (some (.ofBool (a = owner)))⟩ .empty).1.decision
    p.Narrowing ∧ before.Becomes after ∧ before.extent? = some .permitOrDeny ∧ after = .permit := by
  intro owner suspended permit deny p request before after
  have narrowing : p.Narrowing := by
    constructor <;> simp [p, permit, deny, nodes, nodesOf, target, condition, Algorithm.narrowing,
      Expression.functions]
  have becomes : before.Becomes after := by
    refine p.evaluate_becomes request _ _ (fun a v known => ?_) narrowing
    split at known
    · rename_i same
      simpa [same] using known
    · cases known
  exact ⟨narrowing, becomes, rfl, rfl⟩

end AccessControl
