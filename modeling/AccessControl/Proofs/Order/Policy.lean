import AccessControl.Proofs.Extent.Possible
import AccessControl.Proofs.Order.Combine

namespace AccessControl.Policy

/-- One tree comes from the other by permuting children, at any depth, of sets that are not
first-applicable. -/
inductive Reordered : Policy → Policy → Prop where
  | refl (p : Policy) : Reordered p p
  | trans {p q r : Policy} (first : Reordered p q) (second : Reordered q r) : Reordered p r
  | permute (h : SetHeader) {ps qs : List Policy} (unordered : h.algorithm ≠ .firstApplicable)
    (perm : ps.Perm qs) : Reordered (set h ps) (set h qs)
  | child (h : SetHeader) (before after : List Policy) {p q : Policy} (below : Reordered p q) :
    Reordered (set h (before ++ p :: after)) (set h (before ++ q :: after))

variable {p q : Policy} {val : Valuation}

theorem Reordered.canHave (reordered : p.Reordered q) (e : Effect) : p.CanHave e ↔ q.CanHave e := by
  induction reordered with
  | refl p => exact .rfl
  | trans _ _ first second => exact first.trans second
  | permute h _ perm =>
    rw [set_canHave, set_canHave]
    simp only [perm.mem_iff]
  | child h before after _ below =>
    rw [set_canHave, set_canHave]
    simp only [List.mem_append, List.mem_cons, or_and_right, exists_or, exists_eq_left, below]

theorem Reordered.possibleEffects (reordered : p.Reordered q) : p.possibleEffects = q.possibleEffects :=
  Extent.eq_of_covers reordered.canHave

theorem Reordered.targetFailure (reordered : p.Reordered q) (r : Reason) :
    targetFailure p r = targetFailure q r := by
  rw [Policy.targetFailure, Policy.targetFailure, reordered.possibleEffects]

theorem set_alike {h : SetHeader} {ps qs : List Policy} (reordered : (set h ps).Reordered (set h qs))
    (combined : (h.algorithm.table h.id (ps.map (eager val))).Alike
      (h.algorithm.table h.id (qs.map (eager val)))) :
    ((set h ps).eager val).Alike ((set h qs).eager val) := by
  rw [eager_set, eager_set, eagerAll_eq_map, eagerAll_eq_map]
  cases Expression.eagerIfPresent val h.target with
  | error r =>
    rw [targeted_error, targeted_error, reordered.targetFailure r]
    exact .same _
  | ok b =>
    cases b with
    | false => exact .same _
    | true =>
      simp only [targeted, Outcome.Alike, h.addObligations_decision]
      exact combined

theorem Reordered.eager_alike (reordered : p.Reordered q) (val : Valuation) :
    (p.eager val).Alike (q.eager val) := by
  induction reordered with
  | refl p => exact .same _
  | trans _ _ first second => exact first.trans second
  | permute h unordered perm =>
    exact set_alike (.permute h unordered perm) (Algorithm.table_perm unordered h.id (perm.map _))
  | child h before after below alike =>
    -- the outcomes keep their places and one of them changes its reason, which any algorithm allows
    refine set_alike (.child h before after below) (Algorithm.table_alike h.algorithm h.id ?_)
    have others (ps : List Policy) : List.Forall₂ Outcome.Alike (ps.map (eager val)) (ps.map (eager val)) :=
      List.forall₂_same.mpr fun o _ => .same o.decision
    rw [List.map_append, List.map_append]
    exact List.rel_append (others before) (.cons alike (others after))

/-- With a resolver that is a function of the attribute, and from caches that hold answers of it only,
a tree decides the same in any order of its children outside first-applicable sets, up to the reason
of a failure. -/
theorem evaluate_reordered (r : Request) (f : AttributeId → Except ResolverError (Option AttributeValue))
    (reordered : p.Reordered q) {c d : Cache} (agrees : Cache.Agrees (.ofFunction f) c)
    (agrees' : Cache.Agrees (.ofFunction f) d) :
    (p.evaluate ⟨r, .ofFunction f⟩ c).1.decision.Alike (q.evaluate ⟨r, .ofFunction f⟩ d).1.decision := by
  rw [p.evaluate_of_agrees r agrees, q.evaluate_of_agrees r agrees']
  exact reordered.eager_alike _

theorem evaluate_reordered_drafts :
    let owner : AttributeId := ⟨.subject, "owner", .boolean, .single⟩
    let editor : AttributeId := ⟨.subject, "editor", .boolean, .single⟩
    let locked : AttributeId := ⟨.resource, "locked", .boolean, .single⟩
    let owned : Policy := .rule ⟨"owned", some (.ref owner), none, .permit, []⟩
    let edited : Policy := .rule ⟨"edited", some (.ref editor), none, .permit, []⟩
    let frozen : Policy := .rule ⟨"frozen", some (.ref locked), none, .deny, []⟩
    let drafts : SetHeader := ⟨"drafts", none, .permitOverrides, []⟩
    let documents : SetHeader := ⟨"documents", none, .denyOverrides, []⟩
    let p : Policy := .set documents [.set drafts [owned, edited], frozen]
    let q : Policy := .set documents [frozen, .set drafts [edited, owned]]
    let request : Request := ⟨"alice", "view", "doc123", ⟨2024, 1, 1, 0, 0, 0, 0, by decide⟩, []⟩
    let f (a : AttributeId) : Except ResolverError (Option AttributeValue) :=
      if a = owner then .ok none else if a = editor then .error (.unavailable "offline")
      else .ok (some (.ofBool false))
    let before : Decision := (p.evaluate ⟨request, .ofFunction f⟩ .empty).1.decision
    let after : Decision := (q.evaluate ⟨request, .ofFunction f⟩ .empty).1.decision
    p.Reordered q ∧ before.Alike after ∧
      before = .indeterminate .permit (.missingAttribute "subject.owner") ∧
      after = .indeterminate .permit
        (.resolverFailure "subject.editor" "attribute source unavailable: offline") := by
  intro owner editor locked owned edited frozen drafts documents p q request f before after
  have inner : (set drafts [owned, edited]).Reordered (set drafts [edited, owned]) :=
    .permute drafts (by decide) (.swap edited owned [])
  have outer : (set documents [set drafts [edited, owned], frozen]).Reordered q :=
    .permute documents (by decide) (.swap frozen _ [])
  have reordered : p.Reordered q := .trans (.child documents [] [frozen] inner) outer
  have alike := evaluate_reordered request f reordered (Cache.Agrees.empty _) (Cache.Agrees.empty _)
  exact ⟨reordered, alike, rfl, rfl⟩

end AccessControl.Policy
