import AccessControl.Proofs.Eager.Policy

namespace AccessControl

namespace Cache

variable {α : Type}

def each : List (Cache → α × Cache) → Cache → List α × Cache
  | [], c => ([], c)
  | f :: fs, c => ((f c).1 :: (each fs (f c).2).1, (each fs (f c).2).2)

end Cache

/-- The decisions behind which a set with this algorithm evaluates no further child. -/
inductive Algorithm.Settled : Algorithm → Decision → Prop where
  | denyOverrides : Settled .denyOverrides .deny
  | permitUnlessDeny : Settled .permitUnlessDeny .deny
  | permitOverrides : Settled .permitOverrides .permit
  | denyUnlessPermit : Settled .denyUnlessPermit .permit
  | firstApplicable {d : Decision} (applicable : d ≠ .notApplicable) : Settled .firstApplicable d

theorem Algorithm.settles_iff {a : Algorithm} {d : Decision} : a.settles d = true ↔ a.Settled d := by
  constructor
  · intro settles
    cases a with
    | denyOverrides => exact Decision.eq_ofEffect (beq_iff_eq.mp settles) ▸ .denyOverrides
    | permitOverrides => exact Decision.eq_ofEffect (beq_iff_eq.mp settles) ▸ .permitOverrides
    | firstApplicable =>
      apply Settled.firstApplicable
      rintro rfl
      cases settles
    | onlyOneApplicable => cases settles
    | denyUnlessPermit => exact Decision.eq_ofEffect (beq_iff_eq.mp settles) ▸ .denyUnlessPermit
    | permitUnlessDeny => exact Decision.eq_ofEffect (beq_iff_eq.mp settles) ▸ .permitUnlessDeny
  · intro settled
    cases settled with
    | firstApplicable applicable => exact d.silent_or_applies.resolve_left applicable
    | _ => rfl

instance (a : Algorithm) (d : Decision) : Decidable (a.Settled d) := decidable_of_iff _ Algorithm.settles_iff

theorem Algorithm.settles_eq_false {a : Algorithm} {d : Decision} (unsettled : ¬a.Settled d) :
    a.settles d = false :=
  Bool.eq_false_iff.mpr (mt settles_iff.mp unsettled)

variable (ctx : Context)

namespace Expression

/-- The operand is the first of its connective, behind those before it, with this truth. -/
structure FirstWith (b : Bool) (before : List Expression) (e : Expression) (c : Cache) : Prop where
  unsettled : ∀ t ∈ (Cache.each (before.map (holds ctx)) c).1, t ≠ .ok b
  settled : (e.holds ctx (Cache.each (before.map (holds ctx)) c).2).1 = .ok b

theorem connective_holds (settling : Bool) (e : Expression) (es : List Expression) (c : Cache) :
    connective ctx settling (e :: es) c =
      match (e.holds ctx c).1 with
      | .ok b =>
        if b = settling then (.ok settling, (e.holds ctx c).2)
        else connective ctx settling es (e.holds ctx c).2
      | .error r =>
        (past settling r (connective ctx settling es (e.holds ctx c).2).1,
          (connective ctx settling es (e.holds ctx c).2).2) := by
  rw [connective_cons]
  simp only [Cache.andThen, holds]
  cases (e.value ctx c).1.bind AttributeValue.truth with
  | ok b => by_cases settles : b = settling <;> simp only [settles, if_true, if_false]
  | error r => rfl

theorem connective_settled {settling : Bool} {before : List Expression} {e : Expression} {c : Cache}
    (first : FirstWith ctx settling before e c) (after : List Expression) :
    connective ctx settling (before ++ e :: after) c =
      (.ok settling, (e.holds ctx (Cache.each (before.map (holds ctx)) c).2).2) := by
  induction before generalizing c with
  | nil =>
    have settled : (e.holds ctx c).1 = .ok settling := first.settled
    rw [List.nil_append, connective_holds, settled]
    exact if_pos rfl
  | cons d before ih =>
    obtain ⟨head, tail⟩ := List.forall_mem_cons.mp first.unsettled
    have rest := ih ⟨tail, first.settled⟩
    rw [List.cons_append, connective_holds, rest]
    cases truth : (d.holds ctx c).1 with
    | error r => exact congrArg (·, _) (if_pos rfl)
    | ok b =>
      rw [truth] at head
      exact if_neg fun same => head (congrArg _ same)

end Expression

def SetHeader.check (h : SetHeader) (c : Cache) : Except Reason Bool × Cache :=
  holdsIfPresent ctx h.target c.visitNode

namespace Policy

def evaluateEach (ps : List Policy) : Cache → List Outcome × Cache := Cache.each (ps.map (evaluate ctx))

/-- The set evaluates its children, and the child behind those before it is the first whose decision
settles the set. -/
structure FirstSettling (h : SetHeader) (before : List Policy) (p : Policy) (c : Cache) : Prop where
  target : (h.check ctx c).1 = .ok true
  unsettled : ∀ o ∈ (evaluateEach ctx before (h.check ctx c).2).1, ¬h.algorithm.Settled o.decision
  settled : h.algorithm.Settled (p.evaluate ctx (evaluateEach ctx before (h.check ctx c).2).2).1.decision

theorem evaluateChildren_unsettled {a : Algorithm} {before : List Policy} {c : Cache}
    (unsettled : ∀ o ∈ (evaluateEach ctx before c).1, ¬a.Settled o.decision) (ps : List Policy) :
    evaluateChildren ctx a (before ++ ps) c =
      ((evaluateEach ctx before c).1 ++
          (evaluateChildren ctx a ps (evaluateEach ctx before c).2).1,
        (evaluateChildren ctx a ps (evaluateEach ctx before c).2).2) := by
  induction before generalizing c with
  | nil => rfl
  | cons p before ih =>
    obtain ⟨head, tail⟩ := List.forall_mem_cons.mp unsettled
    have rest := ih tail
    rw [List.cons_append, evaluateChildren_cons, Cache.andThen, Algorithm.settles_eq_false head]
    simp only [Bool.false_eq_true, if_false, rest]
    rfl

theorem evaluateChildren_settled {a : Algorithm} {p : Policy} {c : Cache}
    (settled : a.Settled (p.evaluate ctx c).1.decision) (after : List Policy) :
    evaluateChildren ctx a (p :: after) c = ([(p.evaluate ctx c).1], (p.evaluate ctx c).2) := by
  rw [evaluateChildren_cons, Cache.andThen, if_pos (Algorithm.settles_iff.mpr settled)]

theorem evaluateChildren_all {a : Algorithm} {ps : List Policy} {c : Cache}
    (unsettled : ∀ o ∈ (evaluateEach ctx ps c).1, ¬a.Settled o.decision) :
    evaluateChildren ctx a ps c = evaluateEach ctx ps c := by
  have all := evaluateChildren_unsettled ctx unsettled []
  rw [List.append_nil] at all
  rw [all, evaluateChildren, List.append_nil]

theorem evaluate_reached {h : SetHeader} {c : Cache} (target : (h.check ctx c).1 = .ok true)
    (ps : List Policy) :
    (set h ps).evaluate ctx c =
      (h.addObligations (h.algorithm.reduce h.id (evaluateChildren ctx h.algorithm ps (h.check ctx c).2).1),
        (evaluateChildren ctx h.algorithm ps (h.check ctx c).2).2) := by
  have target : (holdsIfPresent ctx h.target c.visitNode).1 = .ok true := target
  rw [evaluate_set, Cache.andThen, target, SetHeader.check]

theorem evaluate_settled {h : SetHeader} {before : List Policy} {p : Policy} {c : Cache}
    (first : FirstSettling ctx h before p c) (after after' : List Policy) :
    (set h (before ++ p :: after)).evaluate ctx c = (set h (before ++ p :: after')).evaluate ctx c := by
  rw [evaluate_reached ctx first.target, evaluate_reached ctx first.target,
    evaluateChildren_unsettled ctx first.unsettled, evaluateChildren_unsettled ctx first.unsettled,
    evaluateChildren_settled ctx first.settled, evaluateChildren_settled ctx first.settled]

theorem evaluate_untargeted {p : Policy} {t : Expression} {c : Cache} (target : p.target = some t)
    (fails : (t.holds ctx c.visitNode).1 = .ok false) :
    p.evaluate ctx c = (.notApplicable, (t.holds ctx c.visitNode).2) := by
  cases p with
  | rule r =>
    have target : r.target = some t := target
    rw [evaluate, Rule.evaluate_eq, target]
    simp only [Cache.andThen, Cache.bind_eq_andThen, holdsIfPresent, fails, Bool.false_eq_true, if_false]
    rfl
  | set h ps =>
    have target : h.target = some t := target
    rw [evaluate_set, target]
    simp only [Cache.andThen, holdsIfPresent, fails]

theorem evaluate_unsettled {h : SetHeader} {ps : List Policy} {c : Cache}
    (target : (h.check ctx c).1 = .ok true)
    (unsettled : ∀ o ∈ (evaluateEach ctx ps (h.check ctx c).2).1, ¬h.algorithm.Settled o.decision) :
    (set h ps).evaluate ctx c =
      (h.addObligations (h.algorithm.reduce h.id (evaluateEach ctx ps (h.check ctx c).2).1),
        (evaluateEach ctx ps (h.check ctx c).2).2) := by
  rw [evaluate_reached ctx target, evaluateChildren_all ctx unsettled]

theorem evaluate_child {h : SetHeader} {before : List Policy} {p q : Policy} {c : Cache}
    (target : (h.check ctx c).1 = .ok true)
    (unsettled : ∀ o ∈ (evaluateEach ctx before (h.check ctx c).2).1, ¬h.algorithm.Settled o.decision)
    (same : p.evaluate ctx (evaluateEach ctx before (h.check ctx c).2).2 =
      q.evaluate ctx (evaluateEach ctx before (h.check ctx c).2).2) (after : List Policy) :
    (set h (before ++ p :: after)).evaluate ctx c = (set h (before ++ q :: after)).evaluate ctx c := by
  rw [evaluate_reached ctx target, evaluate_reached ctx target, evaluateChildren_unsettled ctx unsettled,
    evaluateChildren_unsettled ctx unsettled, evaluateChildren_cons, evaluateChildren_cons, Cache.andThen,
    Cache.andThen, same]

end Policy

/-- From any cache and with any resolver, the outcome and the cache that an evaluation leaves do not
depend on anything of a node whose target is false but this target, on the children behind the first
that settles their set, or on the operands behind the first that settles their connective. A set that
no child settles, and any only-one-applicable set, evaluates all its children. -/
theorem Policy.evaluate_unreached :
    (∀ (p q : Policy) (t : Expression) (c : Cache), p.target = some t → q.target = some t →
      (t.holds ctx c.visitNode).1 = .ok false →
        p.evaluate ctx c = (.notApplicable, (t.holds ctx c.visitNode).2) ∧
          q.evaluate ctx c = p.evaluate ctx c) ∧
    (∀ (h : SetHeader) (before : List Policy) (p : Policy) (c : Cache),
      FirstSettling ctx h before p c → ∀ after after' : List Policy,
        (set h (before ++ p :: after)).evaluate ctx c = (set h (before ++ p :: after')).evaluate ctx c) ∧
    (∀ (before : List Expression) (e : Expression) (c : Cache),
      Expression.FirstWith ctx false before e c → ∀ after after' : List Expression,
        (Expression.and (before ++ e :: after)).value ctx c =
          (Expression.and (before ++ e :: after')).value ctx c) ∧
    (∀ (before : List Expression) (e : Expression) (c : Cache),
      Expression.FirstWith ctx true before e c → ∀ after after' : List Expression,
        (Expression.or (before ++ e :: after)).value ctx c =
          (Expression.or (before ++ e :: after')).value ctx c) ∧
    (∀ (h : SetHeader) (ps : List Policy) (c : Cache), (h.check ctx c).1 = .ok true →
      (h.algorithm = .onlyOneApplicable ∨
        ∀ o ∈ (evaluateEach ctx ps (h.check ctx c).2).1, ¬h.algorithm.Settled o.decision) →
      (set h ps).evaluate ctx c =
        (h.addObligations (h.algorithm.reduce h.id (evaluateEach ctx ps (h.check ctx c).2).1),
          (evaluateEach ctx ps (h.check ctx c).2).2)) ∧
    ∀ (h : SetHeader) (before : List Policy) (p q : Policy) (c : Cache), (h.check ctx c).1 = .ok true →
      (∀ o ∈ (evaluateEach ctx before (h.check ctx c).2).1, ¬h.algorithm.Settled o.decision) →
      p.evaluate ctx (evaluateEach ctx before (h.check ctx c).2).2 =
        q.evaluate ctx (evaluateEach ctx before (h.check ctx c).2).2 →
      ∀ after : List Policy,
        (set h (before ++ p :: after)).evaluate ctx c = (set h (before ++ q :: after)).evaluate ctx c := by
  refine ⟨?_, ?_, ?_, ?_, ?_, ?_⟩
  · intro p q t c target target' fails
    rw [evaluate_untargeted ctx target fails, evaluate_untargeted ctx target' fails]
    exact ⟨rfl, rfl⟩
  · intro h before p c first after after'
    exact evaluate_settled ctx first after after'
  · intro before e c first after after'
    rw [Expression.value, Expression.value, Expression.connective_settled ctx first,
      Expression.connective_settled ctx first]
  · intro before e c first after after'
    rw [Expression.value, Expression.value, Expression.connective_settled ctx first,
      Expression.connective_settled ctx first]
  · intro h ps c target unsettled
    apply evaluate_unsettled ctx target
    rcases unsettled with single | unsettled
    · intro o _ settled
      rw [single] at settled
      cases settled
    · exact unsettled
  · intro h before p q c target unsettled same after
    exact evaluate_child ctx target unsettled same after

theorem Policy.evaluate_unreached_region :
    let owner : AttributeId := ⟨.subject, "owner", .boolean, .single⟩
    let locked : AttributeId := ⟨.resource, "locked", .boolean, .single⟩
    let region : AttributeId := ⟨.subject, "region", .boolean, .single⟩
    let unlocked : Expression := .not (.ref locked)
    let reader : Policy := .rule ⟨"reader", some (.ref owner), none, .permit, []⟩
    let frozen : Policy := .rule ⟨"frozen", some (.ref locked), none, .deny, []⟩
    let regional : Policy := .rule ⟨"local", some (.ref region), none, .permit, []⟩
    let editor : Policy := .rule ⟨"editor", some unlocked, some (.ref region), .permit, []⟩
    let closed : Policy := .set ⟨"closed", some unlocked, .onlyOneApplicable, []⟩ []
    let documents : SetHeader := ⟨"documents", none, .denyOverrides, []⟩
    let single : SetHeader := ⟨"single", none, .onlyOneApplicable, []⟩
    let request : Request := ⟨"alice", "view", "doc123", ⟨2024, 1, 1, 0, 0, 0, 0, by decide⟩, []⟩
    let ctx : Context := ⟨request, .ofFunction fun a =>
      if a = owner then .error (.unavailable "offline") else .ok (some (.ofBool true))⟩
    editor.evaluate ctx .empty = closed.evaluate ctx .empty ∧
      (set documents [reader, frozen, regional]).evaluate ctx .empty =
        (set documents [reader, frozen]).evaluate ctx .empty ∧
      (Expression.and [.ref owner, unlocked, .ref region]).value ctx .empty =
        (Expression.and [.ref owner, unlocked]).value ctx .empty ∧
      (Expression.or [.ref owner, .ref locked, .ref region]).value ctx .empty =
        (Expression.or [.ref owner, .ref locked]).value ctx .empty ∧
      ((set single [frozen, regional]).evaluate ctx .empty).2 =
        (evaluateEach ctx [frozen, regional] (single.check ctx .empty).2).2 ∧
      (set single [frozen, editor]).evaluate ctx .empty = (set single [frozen, closed]).evaluate ctx .empty ∧
      ((set documents [reader, frozen, regional]).evaluate ctx .empty).2.calls = [owner, locked] := by
  intro owner locked region unlocked reader frozen regional editor closed documents single request ctx
  obtain ⟨target, children, conjuncts, disjuncts, all, child⟩ := Policy.evaluate_unreached ctx
  have settled : FirstSettling ctx documents [reader] frozen .empty := ⟨rfl, by decide, .denyOverrides⟩
  have refuted : Expression.FirstWith ctx false [.ref owner] unlocked .empty := by
    refine ⟨?_, rfl⟩
    rintro t member rfl
    cases List.mem_singleton.mp member
  have affirmed : Expression.FirstWith ctx true [.ref owner] (.ref locked) .empty := by
    refine ⟨?_, rfl⟩
    rintro t member rfl
    cases List.mem_singleton.mp member
  have alike (c : Cache) (fails : (unlocked.holds ctx c.visitNode).1 = .ok false) :
      editor.evaluate ctx c = closed.evaluate ctx c :=
    (target closed editor unlocked c rfl rfl fails).2
  have evaluated := all single [frozen, regional] .empty rfl (.inl rfl)
  exact ⟨alike _ rfl, children _ _ _ _ settled [regional] [], conjuncts _ _ _ refuted [.ref region] [],
    disjuncts _ _ _ affirmed [.ref region] [], by rw [evaluated],
    child single [frozen] editor closed _ rfl (by decide) (alike _ rfl) [], rfl⟩

end AccessControl
