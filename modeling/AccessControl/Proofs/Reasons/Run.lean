import AccessControl.Proofs.Reasons.Policy

namespace AccessControl

/-- The resolver gave this answer when the run with these calls asked it for the attribute. -/
def Context.Answered (ctx : Context) (calls : List AttributeId) (a : AttributeId)
    (answer : Except ResolverError (Option AttributeValue)) : Prop :=
  ∃ before after, calls = before ++ a :: after ∧ ctx.resolver ctx.request before a = answer

/-- The attribute has this value in the run, by a binding or by the resolver's answer. -/
def Context.Gives (ctx : Context) (calls : List AttributeId) (a : AttributeId) (v : AttributeValue) : Prop :=
  ctx.request.get? a = some v ∨ (ctx.request.get? a = none ∧ ctx.Answered calls a (.ok (some v)))

inductive Context.LookupFails (ctx : Context) (calls : List AttributeId) (a : AttributeId) :
    Reason → Prop where
  | unfit {v : AttributeValue} {r : Reason} : ctx.Gives calls a v → Answer.check a v = .error r →
    LookupFails ctx calls a r
  | missing : ctx.request.get? a = none → ctx.Answered calls a (.ok none) →
    LookupFails ctx calls a (.missingAttribute a.text)
  | failed {e : ResolverError} : ctx.request.get? a = none → ctx.Answered calls a (.error e) →
    LookupFails ctx calls a (.resolverFailure a.text e.message)

def ValueType.sample : ValueType → Value
  | boolean => .boolean false
  | string => .string ""
  | integer => .integer 0
  | double => .double ⟨0⟩
  | dateTime => .dateTime ⟨2000, 1, 1, 0, 0, 0, 0, by decide⟩

def AttributeId.sample (a : AttributeId) : AttributeValue :=
  match a.multiplicity with
  | .single => .simple a.valueType.sample
  | .bag => .bag (.ofList [])

theorem AttributeId.sample_conforms (a : AttributeId) : a.sample.conformsTo a = true := by
  obtain ⟨category, name, type, multiplicity⟩ := a
  cases multiplicity with
  | bag => rfl
  | single => cases type <;> rfl

namespace Cache

def completed (c : Cache) : Snapshot := fun a => (c.answers.lookup a).getD (.found a.sample)

theorem agrees_completed (c : Cache) : Agrees c.completed c := by
  intro a answer known
  rw [completed, known, Option.getD_some]

variable {ctx : Context} {c : Cache}

theorem Logged.read_completed (logged : Logged ctx c) {a : AttributeId} {r : Reason}
    (failed : ctx.request.read c.completed a = .error r) : ctx.LookupFails c.calls a r := by
  cases bound : ctx.request.get? a with
  | some v =>
    simp only [Request.read, bound] at failed
    exact .unfit (.inl bound) failed
  | none =>
    simp only [Request.read, bound, completed] at failed
    cases known : c.answers.lookup a with
    | none =>
      rw [known, Option.getD_none, Answer.value, Answer.check, if_pos a.sample_conforms] at failed
      cases failed
    | some answer =>
      obtain ⟨before, after, calls, given⟩ := logged.given a answer known
      rw [known, Option.getD_some, given] at failed
      cases answered : ctx.resolver ctx.request before a with
      | error e =>
        rw [answered] at failed
        cases failed
        exact .failed bound ⟨before, after, calls, answered⟩
      | ok found =>
        rw [answered] at failed
        cases found with
        | none =>
          cases failed
          exact .missing bound ⟨before, after, calls, answered⟩
        | some v => exact .unfit (.inr ⟨bound, before, after, calls, answered⟩) failed

end Cache

theorem Answer.check_error {a : AttributeId} {v : AttributeValue} {r : Reason}
    (failed : check a v = .error r) : ∃ detail, r = .typeMismatch detail := by
  unfold check at failed
  split at failed <;> cases failed
  exact ⟨_, rfl⟩

theorem Request.read_elementary {request : Request} {s : Snapshot} {a : AttributeId} {r : Reason}
    (failed : request.read s a = .error r) : r.Elementary := by
  have checked {v : AttributeValue} (failed : Answer.check a v = .error r) : r.Elementary := by
    obtain ⟨detail, rfl⟩ := Answer.check_error failed
    trivial
  unfold read at failed
  split at failed
  · exact checked failed
  · cases answer : s a with
    | found v =>
      rw [answer] at failed
      exact checked failed
    | missing =>
      rw [answer] at failed
      cases failed
      trivial
    | failed message =>
      rw [answer] at failed
      cases failed
      trivial

theorem Raises.elementary {request : Request} {s : Snapshot} {as : List AttributeId} {r : Reason}
    (raises : Raises (request.read s) as r) : r.Elementary := by
  rcases raises with operator | ⟨a, _, failed⟩
  · exact operator.ofValues.elementary
  · exact Request.read_elementary failed

namespace Visit

variable (ctx : Context)

/-- An evaluation goes from the one visit to the other, by way of children. -/
inductive Leads : Visit → Visit → Prop where
  | self (v : Visit) : Leads v v
  | child {v w u : Visit} : w ∈ v.children ctx → Leads w u → Leads v u

/-- The visit is one of an only-one-applicable set of this id, and two of its children applied. -/
def Ambiguous (v : Visit) (id : String) : Prop :=
  ∃ h ps, v.node = .set h ps ∧ h.algorithm = .onlyOneApplicable ∧ h.id = id ∧
    2 ≤ (Algorithm.applicable ((v.children ctx).map (outcome ctx))).length

variable {ctx}

theorem Leads.node {v w : Visit} (leads : v.Leads ctx w) : w.node ∈ v.node.nodes := by
  induction leads with
  | self v => exact v.node.mem_nodes
  | @child v w u child _ ih =>
    have below := mem_children ctx child
    obtain ⟨p, c⟩ := v
    cases p with
    | rule r => cases below
    | set h ps => exact Policy.child_nodes_subset below ih

/-- The reason of a failed visit arose in an expression or is the ambiguity of a set that it went to. -/
theorem outcome_reason {v : Visit} {x : Extent} {r : Reason}
    (failed : (v.outcome ctx).decision = .indeterminate x r) :
    r.Elementary ∨ ∃ id w, r = .multipleApplicable id ∧ v.Leads ctx w ∧ w.Ambiguous ctx id := by
  obtain ⟨p, c⟩ := v
  induction p generalizing c x with
  | rule rule =>
    have eager := (@Policy.evaluate_reads _ ctx (.rule rule)).result c (Cache.agrees_snapshot _)
    rw [outcome, eager] at failed
    exact .inl (Rule.eager_raises failed).elementary
  | set h ps each =>
    rcases outcome_set ctx h ps c with ⟨e, target, outcome⟩ | silent | ⟨d, _, reached⟩
    · rw [outcome] at failed
      rw [Policy.targetFailure_reason failed]
      have eager := (@holdsIfPresent_reads _ ctx h.target).result c.visitNode (Cache.agrees_snapshot _)
      exact .inl (Expression.eagerIfPresent_raises (eager.symm.trans target)).elementary
    · rw [silent] at failed
      cases failed
    · rw [reached, SetHeader.addObligations_decision, Algorithm.reduce_eq_table] at failed
      rcases Algorithm.table_reason failed with ⟨o, member, y, reason⟩ | ⟨single, ambiguous, two⟩
      · obtain ⟨w, child, rfl⟩ := List.mem_map.mp member
        have below := each w.node (mem_children ctx child) w.start reason
        rcases below with elementary | ⟨id, u, name, leads, ambiguous⟩
        · exact .inl elementary
        · exact .inr ⟨id, u, name, .child child leads, ambiguous⟩
      · exact .inr ⟨h.id, _, ambiguous, .self _, h, ps, rfl, single, rfl, two⟩

end Visit

theorem Outcome.respond_indeterminate {ctx : Context} {o : Outcome} {c : Cache} {x : Extent} {r : Reason}
    (failed : (o.respond ctx c).1.decision = .indeterminate x r) :
    o.decision = .indeterminate x r ∨
      ∃ e, o.decision = .ofEffect e ∧ x = .ofEffect e ∧
        (Obligation.fulfill ctx o.obligations c).1 = .error r := by
  cases effect : o.decision.effect? with
  | none =>
    rw [respond_bare ctx effect] at failed
    exact .inl failed
  | some e =>
    have decided := Decision.eq_ofEffect effect
    rw [respond_effect ctx effect] at failed
    cases fulfilled : (Obligation.fulfill ctx o.obligations c).1 with
    | ok os =>
      rw [fulfilled, Outcome.answer, decided] at failed
      exact absurd failed Decision.ofEffect_ne_indeterminate
    | error cause =>
      rw [fulfilled] at failed
      cases failed
      exact .inr ⟨e, decided, rfl, rfl⟩

def Reason.cause : Reason → Reason
  | obligationFailed _ cause => cause
  | r => r

/-- The run of the policy with these calls bears the reason out. -/
def Reason.Attested (ctx : Context) (p : Policy) (calls : List AttributeId) : Reason → Prop
  | missingAttribute name =>
    ∃ a, a.text = name ∧ p.Mentions a ∧ ctx.request.get? a = none ∧ ctx.Answered calls a (.ok none)
  | resolverFailure name message =>
    ∃ a e, a.text = name ∧ p.Mentions a ∧ ctx.request.get? a = none ∧ ctx.Answered calls a (.error e) ∧
      e.message = message
  | multipleApplicable id => ∃ v, (Visit.root p).Leads ctx v ∧ v.node ∈ p.nodes ∧ v.Ambiguous ctx id
  | obligationFailed _ _ => False
  | r => r.OfOperator ∨ ∃ a v, p.Mentions a ∧ ctx.Gives calls a v ∧ Answer.check a v = .error r

namespace Policy

variable {ctx : Context} {p : Policy} {calls : List AttributeId} {r : Reason}

theorem attested_operator (operator : r.OfOperator) : r.Attested ctx p calls := by
  have ofValues := operator.ofValues
  cases r with
  | typeMismatch => exact .inl operator
  | bagTruthiness => exact .inl operator
  | arithmetic => exact .inl operator
  | _ => exact ofValues.elim

theorem attested_lookup {a : AttributeId} (mentions : p.Mentions a) (fails : ctx.LookupFails calls a r) :
    r.Attested ctx p calls := by
  cases fails with
  | unfit gives unfit =>
    obtain ⟨detail, rfl⟩ := Answer.check_error unfit
    exact .inr ⟨a, _, mentions, gives, unfit⟩
  | missing free answered => exact ⟨a, rfl, mentions, free, answered⟩
  | failed free answered => exact ⟨a, _, rfl, mentions, free, answered, rfl⟩

theorem attested_raises {c : Cache} {as : List AttributeId} (logged : Cache.Logged ctx c)
    (mentions : ∀ a ∈ as, p.Mentions a) (raises : Raises (ctx.request.read c.completed) as r) :
    r.Attested ctx p c.calls := by
  rcases raises with operator | ⟨a, member, failed⟩
  · exact attested_operator operator
  · exact attested_lookup (mentions a member) (logged.read_completed failed)

theorem attested_tree {x : Extent} {as : List AttributeId} {c : Cache} (logged : Cache.Logged ctx c)
    (goesOn : Cache.Trace ctx as (p.evaluate ctx .empty).2 c)
    (failed : (p.evaluate ctx .empty).1.decision = .indeterminate x r) : r.Attested ctx p c.calls := by
  rcases Visit.outcome_reason (v := .root p) failed with elementary | ⟨id, v, rfl, leads, ambiguous⟩
  · have eager := p.evaluate_reads.result .empty (c.agrees_completed.of_trace goesOn)
    rw [eager] at failed
    rcases eager_raises failed with raises | ⟨id, rfl⟩
    · exact attested_raises logged (fun a member => mentions_of_attributes member) raises
    · exact elementary.elim
  · exact ⟨v, leads, leads.node, ambiguous⟩

theorem attested_fulfill {os : List Obligation} {c : Cache}
    (logged : Cache.Logged ctx (Obligation.fulfill ctx os c).2)
    (held : ∀ o ∈ os, ∃ q ∈ p.nodes, o ∈ q.obligations)
    (failed : (Obligation.fulfill ctx os c).1 = .error r) :
    ∃ o ∈ os, ∃ cause, r = .obligationFailed o.id cause ∧ cause.Elementary ∧
      cause.Attested ctx p (Obligation.fulfill ctx os c).2.calls := by
  have agrees := (Obligation.fulfill ctx os c).2.agrees_completed
  rw [(Obligation.fulfill_reads os).result c agrees] at failed
  obtain ⟨o, member, cause, rfl, raises⟩ := Obligation.eagerFulfill_raises failed
  have mentions : ∀ a ∈ Obligation.attributes os, p.Mentions a :=
    fun a inside => mentions_of_obligations held inside
  exact ⟨o, member, cause, rfl, raises.elementary, attested_raises logged mentions raises⟩

theorem respond_reason {x : Extent} (failed : (p.respond ctx).1.decision = .indeterminate x r) :
    ((∀ id cause, r ≠ .obligationFailed id cause) ∧ r.Attested ctx p (p.respond ctx).2.calls) ∨
    ∃ e o cause, r = .obligationFailed o.id cause ∧ cause.Elementary ∧
      cause.Attested ctx p (p.respond ctx).2.calls ∧
      (p.evaluate ctx .empty).1.decision = .ofEffect e ∧ x = .ofEffect e ∧
        o ∈ (p.evaluate ctx .empty).1.obligations := by
  have logged : Cache.Logged ctx (p.respond ctx).2 := (Cache.Logged.empty ctx).of_trace (p.respond_trace ctx)
  rcases Outcome.respond_indeterminate failed with tree | ⟨e, decided, extent, unfulfilled⟩
  · have responds := @Outcome.respond_reads (fun _ => .missing) ctx (p.evaluate ctx .empty).1
    have attested := attested_tree logged (responds.trace _) tree
    refine .inl ⟨?_, attested⟩
    rintro id cause rfl
    exact attested
  · have effect : (p.evaluate ctx .empty).1.decision.effect? = some e := by
      rw [decided, Decision.ofEffect_effect?]
    have final : (p.respond ctx).2 = _ := congrArg Prod.snd (Outcome.respond_effect ctx effect _)
    rw [final] at logged ⊢
    obtain ⟨o, member, cause, rfl, elementary, attested⟩ :=
      attested_fulfill logged (p.outcome_obligations_held ctx .empty) unfulfilled
    exact .inr ⟨e, o, cause, rfl, elementary, attested, decided, extent, member⟩

theorem respond_cause {x : Extent} (failed : (p.respond ctx).1.decision = .indeterminate x r) :
    r.cause.Attested ctx p (p.respond ctx).2.calls := by
  rcases respond_reason failed with ⟨simple, attested⟩ | ⟨e, o, cause, rfl, _, attested, _⟩
  · cases r with
    | obligationFailed id cause => exact absurd rfl (simple id cause)
    | _ => exact attested
  · exact attested

end Policy

/-- The reason of an indeterminate response is borne out by its run. If it is that of an obligation, the
tree had decided the effect which the obligation is for and which the response could have had, the
obligation belongs to nodes that decided it, and what failed is an assignment. -/
theorem DecisionPoint.respond_attested (p : DecisionPoint) (request : Request) :
    let ctx : Context := ⟨request, p.resolver⟩
    ∀ x r, (p.respond request).1.decision = .indeterminate x r →
      r.cause.Attested ctx p.policy (p.respond request).2.calls ∧
      ∀ id cause, r = .obligationFailed id cause → cause.Elementary ∧ ∃ e o,
        (p.policy.evaluate ctx .empty).1.decision = .ofEffect e ∧ x = .ofEffect e ∧
          o ∈ (p.policy.evaluate ctx .empty).1.obligations ∧ o.id = id ∧ o.fulfillOn = e ∧
            (Visit.root p.policy).Carries ctx e o := by
  intro ctx x r failed
  refine ⟨Policy.respond_cause failed, fun id cause obligation => ?_⟩
  rcases Policy.respond_reason failed with ⟨simple, _⟩ |
    ⟨e, o, cause', same, elementary, _, decided, extent, member⟩
  · exact absurd obligation (simple id cause)
  · cases obligation.symm.trans same
    have gathered : (p.policy.evaluate ctx .empty).1.obligations = (Visit.root p.policy).contributed ctx e :=
      ((Visit.root p.policy).outcome_gathers ctx).decided e decided
    have carried := (Visit.root p.policy).contributed_carries ctx decided (gathered ▸ member)
    exact ⟨elementary, e, o, decided, extent, member, rfl, carried.1, carried.2⟩

theorem DecisionPoint.respond_attested_store :
    let owner : AttributeId := ⟨.resource, "owner", .string, .single⟩
    let log : Obligation := ⟨"log", .permit, [⟨"owner", .ref owner⟩]⟩
    let cause : Reason := .resolverFailure "resource.owner" "attribute source unavailable: store"
    let down : Resolver := fun _ _ _ => .error (.unavailable "store")
    let catalog : Catalog := ⟨[.subjectId, .resourceId, owner, .actionId, .currentDateTime]⟩
    let p : DecisionPoint := ⟨.rule ⟨"readers", none, none, .permit, [log]⟩, catalog, down, .default, rfl⟩
    let request := Request.new "ann" "read" "doc1" ⟨2025, 1, 8, 10, 0, 0, 0, by decide⟩
    (p.respond request).1.decision = .indeterminate .permit (.obligationFailed "log" cause) ∧
      (p.respond request).2.calls = [owner] ∧
      cause.Attested ⟨request, down⟩ p.policy [owner] ∧ cause.Elementary ∧
      (p.policy.evaluate ⟨request, down⟩ .empty).1.decision = .permit := by
  intro owner log cause down catalog p request
  have failed : (p.respond request).1.decision = .indeterminate .permit (.obligationFailed "log" cause) := rfl
  obtain ⟨attested, blamed⟩ := p.respond_attested request _ _ failed
  exact ⟨failed, rfl, attested, (blamed _ _ rfl).1, rfl⟩

end AccessControl
