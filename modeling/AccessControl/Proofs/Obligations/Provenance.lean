import Mathlib.Data.List.Forall2
import AccessControl.Proofs.Nodes
import AccessControl.Proofs.Obligations.Combine
import AccessControl.Proofs.Visit

namespace AccessControl

namespace Policy

theorem targetFailure_gathers (p : Policy) (r : Reason) {gathered : Effect → List Obligation} :
    (targetFailure p r).Gathers gathered := by
  unfold targetFailure
  split
  · exact .indeterminate _ r
  · exact .notApplicable

end Policy

theorem Rule.outcome_gathers (r : Rule) (b : Except Reason Bool) :
    (r.outcome b).Gathers fun e => r.obligations.filter fun o => o.fulfillOn = e := by
  rcases b with e | _ | _
  · exact .indeterminate _ e
  · exact .notApplicable
  · exact .effect rfl

namespace Visit

variable (ctx : Context)

def contributed (v : Visit) (e : Effect) : List Obligation :=
  ((v.children ctx).filter fun w => (w.outcome ctx).decision = .ofEffect e).flatMap
      (fun w => (w.outcome ctx).obligations) ++
    v.node.obligations.filter fun o => o.fulfillOn = e

/-- The obligation belongs to a node that the visit leads to, and that node and all nodes on the way
decided this effect. -/
inductive Carries (e : Effect) (o : Obligation) : Visit → Prop where
  | own {v : Visit} : (v.outcome ctx).decision = .ofEffect e → o ∈ v.node.obligations → Carries e o v
  | child {v w : Visit} : (v.outcome ctx).decision = .ofEffect e → w ∈ v.children ctx →
    Carries e o w → Carries e o v

theorem obligationsFor_outcomes (vs : List Visit) (e : Effect) :
    Outcome.obligationsFor e (vs.map (outcome ctx)) =
      (vs.filter fun w => (w.outcome ctx).decision = .ofEffect e).flatMap
        fun w => (w.outcome ctx).obligations := by
  have decides : ∀ w ∈ vs,
      (w.outcome ctx).decides e = decide ((w.outcome ctx).decision = .ofEffect e) := by
    intro w _
    rw [Bool.eq_iff_iff, Outcome.decides_iff, decide_eq_true_iff]
  rw [Outcome.obligationsFor, List.filter_map, List.flatMap_map]
  exact congrArg (List.flatMap _) (List.filter_congr decides)

theorem contributed_set (h : SetHeader) (ps : List Policy) (c : Cache) :
    contributed ctx ⟨.set h ps, c⟩ = fun e =>
      Outcome.obligationsFor e ((children ctx ⟨.set h ps, c⟩).map (outcome ctx)) ++
        Obligation.forEffect h.obligations e := by
  funext e
  rw [obligationsFor_outcomes, Obligation.forEffect_eq]
  rfl

theorem outcome_gathers (v : Visit) : (v.outcome ctx).Gathers (v.contributed ctx) := by
  obtain ⟨p, c⟩ := v
  induction p generalizing c with
  | rule r =>
    obtain ⟨b, outcome⟩ := outcome_rule ctx r c
    rw [outcome]
    exact r.outcome_gathers b
  | set h ps each =>
    rcases outcome_set ctx h ps c with ⟨e, _, failed⟩ | silent | ⟨d, visited, reached⟩
    · rw [failed]
      exact Policy.targetFailure_gathers _ e
    · rw [silent]
      exact .notApplicable
    · -- an algorithm that stops at a winner has its obligations alone, so no child may follow one
      have pulled := upToSettling_pulled ctx h.algorithm ps d
      rw [← visited] at pulled
      rw [reached, contributed_set]
      refine Outcome.Gathers.addObligations (Algorithm.reduce_gathers _ h.id pulled ?_) h
      intro o member
      obtain ⟨w, child, rfl⟩ := List.mem_map.mp member
      exact (each w.node (mem_children ctx child) w.start).undecided

theorem contributed_carries {e : Effect} {o : Obligation} (v : Visit)
    (decided : (v.outcome ctx).decision = .ofEffect e) (member : o ∈ v.contributed ctx e) :
    o.fulfillOn = e ∧ Carries ctx e o v := by
  obtain ⟨p, c⟩ := v
  induction p generalizing c with
  | rule r =>
    obtain ⟨own, fulfillOn⟩ := List.mem_filter.mp member
    exact ⟨of_decide_eq_true fulfillOn, .own decided own⟩
  | set h ps each =>
    rcases List.mem_append.mp member with passed | own
    · obtain ⟨w, visited, member⟩ := List.mem_flatMap.mp passed
      obtain ⟨child, decides⟩ := List.mem_filter.mp visited
      have effect := of_decide_eq_true decides
      rw [(w.outcome_gathers ctx).decided e effect] at member
      have carried := each w.node (mem_children ctx child) w.start effect member
      exact ⟨carried.1, .child decided child carried.2⟩
    · obtain ⟨own, fulfillOn⟩ := List.mem_filter.mp own
      exact ⟨of_decide_eq_true fulfillOn, .own decided own⟩

end Visit

/-- The obligation went out under its id, with a value for each of its names. -/
structure FulfilledObligation.Fulfills (f : FulfilledObligation) (o : Obligation) : Prop where
  id : f.id = o.id
  names : f.assignments.map Assignment.name = o.assignments.map AssignmentRule.name

namespace Obligation

variable {ctx : Context}

theorem assign_names {as : List AssignmentRule} {c : Cache} {vs : List Assignment}
    (ok : (assign ctx as c).1 = .ok vs) : vs.map Assignment.name = as.map AssignmentRule.name := by
  induction as generalizing c vs with
  | nil =>
    cases ok
    rfl
  | cons a as ih =>
    rw [assign_cons] at ok
    rcases first : a.value.value ctx c with ⟨_ | v, d⟩
    · simp only [Cache.bind, first] at ok
      cases ok
    · rcases rest : assign ctx as d with ⟨_ | vs', _⟩
      · simp only [Cache.bind, first, rest] at ok
        cases ok
      · simp only [Cache.bind, first, rest] at ok
        cases ok
        have names := ih (congrArg Prod.fst rest)
        rw [List.map_cons, List.map_cons, names]

theorem fulfill_fulfills {os : List Obligation} {c : Cache} {fs : List FulfilledObligation}
    (ok : (fulfill ctx os c).1 = .ok fs) : List.Forall₂ FulfilledObligation.Fulfills fs os := by
  induction os generalizing c fs with
  | nil =>
    cases ok
    exact .nil
  | cons o os ih =>
    rw [fulfill] at ok
    rcases first : assign ctx o.assignments c with ⟨_ | as, d⟩
    · simp only [first] at ok
      cases ok
    · rcases rest : fulfill ctx os d with ⟨_ | fs', _⟩
      · simp only [first, rest] at ok
        cases ok
      · simp only [first, rest] at ok
        cases ok
        exact .cons ⟨rfl, assign_names (congrArg Prod.fst first)⟩ (ih (congrArg Prod.fst rest))

end Obligation

theorem Outcome.respond_fulfills (ctx : Context) (o : Outcome) (c : Cache) :
    ((o.respond ctx c).1.decision.effect? = none → (o.respond ctx c).1.obligations = []) ∧
    ∀ e, (o.respond ctx c).1.decision = .ofEffect e →
      o.decision = .ofEffect e ∧
        List.Forall₂ FulfilledObligation.Fulfills (o.respond ctx c).1.obligations o.obligations := by
  cases effect : o.decision.effect? with
  | none =>
    have bare : (o.respond ctx c).1 = .bare o.decision := by simp only [respond, effect]
    rw [bare]
    refine ⟨fun _ => rfl, fun e decided => ?_⟩
    have decides := congrArg Decision.effect? decided
    rw [Decision.ofEffect_effect?] at decides
    cases effect.symm.trans decides
  | some e =>
    rw [respond_effect ctx effect]
    cases fulfilled : (Obligation.fulfill ctx o.obligations c).1 with
    | error r => exact ⟨fun _ => rfl, fun f decided => by cases f <;> cases decided⟩
    | ok fs =>
      refine ⟨fun none => ?_, fun f decided => ⟨decided, Obligation.fulfill_fulfills fulfilled⟩⟩
      cases effect.symm.trans none

/-- At every node that an evaluation visits, from whatever cache: without an effect there are no
obligations. A rule that decides an effect has those of its own that are for it. A set that decides one
has those of the visited children that decided it too, in the order of the children, and then those of
its own that are for it. A response without an effect has none. One with an effect fulfils, in order,
those of the root: each is for that effect and belongs to a node that, like all nodes above it, decided
it. -/
theorem Policy.respond_obligations (ctx : Context) (p : Policy) :
    (∀ v : Visit, (v.outcome ctx).decision.effect? = none → (v.outcome ctx).obligations = []) ∧
    (∀ (r : Rule) (c : Cache) (e : Effect), (Visit.outcome ctx ⟨rule r, c⟩).decision = .ofEffect e →
      (Visit.outcome ctx ⟨rule r, c⟩).obligations = r.obligations.filter fun o => o.fulfillOn = e) ∧
    (∀ (h : SetHeader) (ps : List Policy) (c : Cache) (e : Effect),
      (Visit.outcome ctx ⟨set h ps, c⟩).decision = .ofEffect e →
      (Visit.outcome ctx ⟨set h ps, c⟩).obligations =
        ((Visit.children ctx ⟨set h ps, c⟩).filter fun w =>
            (w.outcome ctx).decision = .ofEffect e).flatMap (fun w => (w.outcome ctx).obligations) ++
          h.obligations.filter fun o => o.fulfillOn = e) ∧
    ((p.respond ctx).1.decision.effect? = none → (p.respond ctx).1.obligations = []) ∧
    ∀ e, (p.respond ctx).1.decision = .ofEffect e →
      List.Forall₂ FulfilledObligation.Fulfills (p.respond ctx).1.obligations
        ((Visit.root p).outcome ctx).obligations ∧
      ∀ o ∈ ((Visit.root p).outcome ctx).obligations,
        o.fulfillOn = e ∧ (Visit.root p).Carries ctx e o := by
  have gathers (v : Visit) := v.outcome_gathers ctx
  obtain ⟨bare, fulfills⟩ := (p.evaluate ctx .empty).1.respond_fulfills ctx (p.evaluate ctx .empty).2
  refine ⟨fun v => (gathers v).undecided, fun r c => (gathers ⟨rule r, c⟩).decided,
    fun h ps c => (gathers ⟨set h ps, c⟩).decided, bare, fun e decided => ?_⟩
  obtain ⟨outcome, fulfilled⟩ := fulfills e decided
  refine ⟨fulfilled, fun o member => ?_⟩
  have contributed := (gathers (.root p)).decided e outcome
  rw [contributed] at member
  exact (Visit.root p).contributed_carries ctx outcome member

theorem Policy.respond_obligations_nested :
    let reader : Policy := .rule ⟨"reader", none, none, .permit,
      [⟨"log", .permit, []⟩, ⟨"alert", .deny, []⟩, ⟨"notice", .permit, []⟩]⟩
    let guest : Policy := .rule ⟨"guest", none, none, .deny, [⟨"report", .deny, []⟩]⟩
    let editor : Policy := .rule ⟨"editor", none, none, .permit,
      [⟨"lock", .deny, []⟩, ⟨"track", .permit, []⟩]⟩
    let inner : Policy := .set ⟨"inner", none, .permitOverrides,
      [⟨"mail", .permit, []⟩, ⟨"freeze", .deny, []⟩]⟩ [guest, editor]
    let idle : Policy := .set ⟨"idle", none, .firstApplicable, [⟨"idle", .permit, []⟩]⟩ []
    let outer : Policy := .set ⟨"outer", none, .denyOverrides,
      [⟨"audit", .deny, []⟩, ⟨"stamp", .permit, []⟩]⟩ [reader, inner, idle]
    let ctx : Context :=
      ⟨⟨"alice", "view", "doc123", ⟨2024, 1, 1, 0, 0, 0, 0, by decide⟩, []⟩, .empty⟩
    ((Visit.root reader).outcome ctx).obligations.map Obligation.id = ["log", "notice"] ∧
      ((Visit.root inner).outcome ctx).obligations.map Obligation.id = ["track", "mail"] ∧
      (outer.respond ctx).1.decision = .permit ∧
      (outer.respond ctx).1.obligations.map FulfilledObligation.id =
        ["log", "notice", "track", "mail", "stamp"] ∧
      ∀ o ∈ ((Visit.root outer).outcome ctx).obligations,
        o.fulfillOn = .permit ∧ (Visit.root outer).Carries ctx .permit o := by
  intro reader guest editor inner idle outer ctx
  obtain ⟨_, rules, sets, _, responds⟩ := Policy.respond_obligations ctx outer
  have ofReader : ((Visit.root reader).outcome ctx).obligations.map Obligation.id = ["log", "notice"] :=
    congrArg (List.map Obligation.id) (rules _ _ .permit rfl)
  have ofInner : ((Visit.root inner).outcome ctx).obligations.map Obligation.id = ["track", "mail"] :=
    congrArg (List.map Obligation.id) (sets _ _ _ .permit rfl)
  have decided : (outer.respond ctx).1.decision = .ofEffect .permit := rfl
  exact ⟨ofReader, ofInner, decided, rfl, (responds .permit decided).2⟩

end AccessControl
