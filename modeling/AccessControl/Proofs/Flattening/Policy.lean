import AccessControl.Proofs.Extent.Possible
import AccessControl.Proofs.Flattening.Combine

namespace AccessControl

abbrev Response.Equivalent : Response → Response → Prop := Response.Related fun _ _ => True

theorem SetHeader.addObligations_none {h : SetHeader} (none : h.obligations = []) (o : Outcome) :
    h.addObligations o = o := by
  unfold addObligations
  split
  · rw [none, Obligation.forEffect, List.filter_nil, List.append_nil]
  · rfl

namespace Policy

/-- One tree comes from the other by putting the children of sets without target and obligations in
the place of these sets, at any depth, inside sets of the same algorithm. -/
inductive Flattened : Policy → Policy → Prop where
  | refl (p : Policy) : Flattened p p
  | trans {p q r : Policy} (first : Flattened p q) (second : Flattened q r) : Flattened p r
  | splice (h inner : SetHeader) (before nested after : List Policy)
    (algorithm : inner.algorithm = h.algorithm)
    (target : inner.target = none) (obligations : inner.obligations = []) :
    Flattened (set h (before ++ set inner nested :: after)) (set h (before ++ (nested ++ after)))
  | child (h : SetHeader) (before after : List Policy) {p q : Policy} (below : Flattened p q) :
    Flattened (set h (before ++ p :: after)) (set h (before ++ q :: after))

variable {p q : Policy} {val : Valuation}

theorem Flattened.canHave (flattened : p.Flattened q) (e : Effect) : p.CanHave e ↔ q.CanHave e := by
  induction flattened with
  | refl p => exact .rfl
  | trans _ _ first second => exact first.trans second
  | splice h inner before nested after algorithm =>
    simp only [set_canHave, List.mem_append, List.mem_cons, or_and_right, exists_or, exists_eq_left,
      algorithm]
    -- the default of the nested set is the default of the outer one
    by_cases default : h.algorithm.default? = some e
    · simp only [default, or_true]
    · simp only [default, or_false]
  | child h before after _ below =>
    simp only [set_canHave, List.mem_append, List.mem_cons, or_and_right, exists_or, exists_eq_left, below]

theorem Flattened.possibleEffects (flattened : p.Flattened q) : p.possibleEffects = q.possibleEffects :=
  Extent.eq_of_covers flattened.canHave

theorem set_equivalent {h : SetHeader} {ps qs : List Policy}
    (effects : (set h ps).possibleEffects = (set h qs).possibleEffects)
    (combined : (h.algorithm.table h.id (ps.map (eager val))).Equivalent
      (h.algorithm.table h.id (qs.map (eager val)))) :
    ((set h ps).eager val).Equivalent ((set h qs).eager val) := by
  rw [eager_set, eager_set, eagerAll_eq_map, eagerAll_eq_map]
  rcases Expression.eagerIfPresent val h.target with r | _ | _
  · rw [targeted_error, targeted_error, targetFailure, targetFailure, effects]
    exact .of_eq rfl
  · exact .of_eq rfl
  · exact combined.addObligations h

theorem eager_plain {h : SetHeader} (target : h.target = none) (obligations : h.obligations = [])
    (ps : List Policy) : (set h ps).eager val = h.algorithm.combine h.id (ps.map (eager val)) := by
  rw [eager_set, target, eagerAll_eq_map, h.addObligations_none obligations, ← Algorithm.combine_eq_table]
  rfl

theorem Flattened.eager_equivalent (flattened : p.Flattened q) (val : Valuation) :
    (p.eager val).Equivalent (q.eager val) := by
  induction flattened with
  | refl p => exact .of_eq rfl
  | trans _ _ first second => exact first.trans (fun _ _ => trivial) second
  | splice h inner before nested after algorithm target obligations =>
    have effects :=
      Flattened.possibleEffects (.splice h inner before nested after algorithm target obligations)
    apply set_equivalent effects
    rw [List.map_append, List.map_cons, eager_plain target obligations, algorithm, List.map_append,
      List.map_append, ← Algorithm.combine_eq_table, ← Algorithm.combine_eq_table]
    exact h.algorithm.combine_nested h.id inner.id _ _ _
  | child h before after below equivalent =>
    apply set_equivalent (Flattened.possibleEffects (.child h before after below))
    have others (ps : List Policy) :
        List.Forall₂ Outcome.Equivalent (ps.map (eager val)) (ps.map (eager val)) :=
      List.forall₂_same.mpr fun o _ => .of_eq rfl
    rw [List.map_append, List.map_append]
    exact Algorithm.table_related (fun _ => trivial) h.algorithm h.id
      (List.rel_append (others before) (.cons equivalent (others after)))

end Policy

theorem Outcome.Equivalent.eagerRespond {o o' : Outcome} (equivalent : o.Equivalent o') (val : Valuation) :
    (o.eagerRespond val).Equivalent (o'.eagerRespond val) := by
  have decisions := equivalent.decision
  unfold Outcome.eagerRespond
  rw [← decisions.effect?, ← equivalent.obligations]
  cases o.decision.effect? with
  | none => exact ⟨decisions, rfl⟩
  | some e =>
    cases Obligation.eagerFulfill val o.obligations with
    | ok os => exact ⟨decisions, rfl⟩
    | error r => exact ⟨.refl (fun _ => trivial) _, rfl⟩

/-- A combined outcome stands for the outcomes that it combines, wherever it occurs among outcomes of
the same algorithm. So with a resolver that is a function of the attribute a flattened tree decides as
before, up to the reason of a failure, with the same obligations, and gives the same response. -/
theorem Policy.respond_flattened :
    (∀ (a : Algorithm) (id inner : String) (xs ys zs : List Outcome),
      (a.combine id (xs ++ a.combine inner ys :: zs)).Equivalent (a.combine id (xs ++ (ys ++ zs)))) ∧
    ∀ p q : Policy, p.Flattened q →
      ∀ (r : Request) (f : AttributeId → Except ResolverError (Option AttributeValue)),
        (∀ c d : Cache, Cache.Agrees (.ofFunction f) c → Cache.Agrees (.ofFunction f) d →
          (p.evaluate ⟨r, .ofFunction f⟩ c).1.Equivalent (q.evaluate ⟨r, .ofFunction f⟩ d).1) ∧
        (p.respond ⟨r, .ofFunction f⟩).1.Equivalent (q.respond ⟨r, .ofFunction f⟩).1 := by
  refine ⟨Algorithm.combine_nested, fun p q flattened r f => ⟨fun c d agrees agrees' => ?_, ?_⟩⟩
  · rw [p.evaluate_of_agrees r agrees, q.evaluate_of_agrees r agrees']
    exact flattened.eager_equivalent _
  · rw [p.respond_ofFunction, q.respond_ofFunction]
    exact (flattened.eager_equivalent _).eagerRespond _

theorem Policy.respond_flattened_drafts :
    let foreign : AttributeId := ⟨.subject, "foreign", .boolean, .single⟩
    let locked : AttributeId := ⟨.resource, "locked", .boolean, .single⟩
    let frozen : Policy := .rule ⟨"frozen", some (.ref locked), none, .deny, []⟩
    let outsider : Policy := .rule ⟨"outsider", some (.ref foreign), none, .deny, []⟩
    let reader : Policy := .rule ⟨"reader", none, none, .permit, [⟨"log", .permit, []⟩]⟩
    let documents : SetHeader := ⟨"documents", none, .denyOverrides, []⟩
    let drafts : SetHeader := ⟨"drafts", none, .denyOverrides, []⟩
    let p : Policy := .set documents [frozen, .set drafts [outsider, reader]]
    let q : Policy := .set documents [frozen, outsider, reader]
    let request : Request := ⟨"alice", "view", "doc123", ⟨2024, 1, 1, 0, 0, 0, 0, by decide⟩, []⟩
    let unknown : Context := ⟨request, .ofFunction fun _ => .ok none⟩
    let clear : Context := ⟨request, .ofFunction fun _ => .ok (some (.ofBool false))⟩
    p.Flattened q ∧
      (p.respond unknown).1.Equivalent (q.respond unknown).1 ∧
      (p.respond unknown).1.decision = .indeterminate .permitOrDeny (.missingAttribute "subject.foreign") ∧
      (q.respond unknown).1.decision = .indeterminate .permitOrDeny (.missingAttribute "resource.locked") ∧
      (p.respond clear).1.Equivalent (q.respond clear).1 ∧
      (p.respond clear).1.decision = .permit ∧
      (p.respond clear).1.obligations = [⟨"log", []⟩] := by
  intro foreign locked frozen outsider reader documents drafts p q request unknown clear
  have flattened : p.Flattened q := .splice documents drafts [frozen] [outsider, reader] [] rfl rfl rfl
  have same := respond_flattened.2 p q flattened request
  exact ⟨flattened, (same _).2, rfl, rfl, (same _).2, rfl, rfl⟩

end AccessControl
