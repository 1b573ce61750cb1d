import Mathlib.Data.Finset.Card
import AccessControl.Proofs.Cost.Nodes

namespace AccessControl

/-- What can be evaluated in a context: an attribute, an expression for its truth or for its value, a node
of a tree, and a tree with the obligations of its outcome. -/
inductive Evaluation where
  | lookup (a : AttributeId)
  | truth (e : Expression)
  | value (e : Expression)
  | node (p : Policy)
  | response (p : Policy)

namespace Evaluation

def apply (ctx : Context) (c : Cache) : Evaluation → Cache
  | lookup a => (c.lookup ctx a).2
  | truth e => (e.holds ctx c).2
  | value e => (e.value ctx c).2
  | node p => (p.evaluate ctx c).2
  | response p => ((p.evaluate ctx c).1.respond ctx (p.evaluate ctx c).2).2

def inquiry : Evaluation → Inquiry Unit
  | lookup a => .look a fun _ => .done ()
  | truth e => e.truthInquiry.map fun _ => ()
  | value e => e.inquiry.map fun _ => ()
  | node p => p.inquiry.map fun _ => ()
  | response p => p.respondInquiry.map fun _ => ()

def inquiryAll : List Evaluation → Inquiry Unit
  | [] => .done ()
  | e :: es => e.inquiry.andThen fun _ => inquiryAll es

variable {ctx : Context}

theorem run_inquiry (e : Evaluation) (c : Cache) : (e.inquiry.run ctx c).2 = e.apply ctx c := by
  cases e with
  | lookup a => rfl
  | truth e => simp only [inquiry, Inquiry.run_map, Expression.run_truthInquiry, apply]
  | value e => simp only [inquiry, Inquiry.run_map, Expression.run_inquiry, apply]
  | node p => simp only [inquiry, Inquiry.run_map, Policy.run_inquiry, apply]
  | response p =>
    simp only [inquiry, Inquiry.run_map, Policy.respondInquiry, Inquiry.run_andThen, Policy.run_inquiry,
      Outcome.run_inquiry, Cache.andThen, apply]

theorem run_inquiryAll (es : List Evaluation) (c : Cache) :
    ((inquiryAll es).run ctx c).2 = es.foldl (apply ctx) c := by
  induction es generalizing c with
  | nil => rfl
  | cons e es ih => rw [inquiryAll, Inquiry.run_andThen, Cache.andThen, ih, run_inquiry, List.foldl_cons]

end Evaluation

theorem Inquiry.counters {α : Type} (ctx : Context) (q : Inquiry α) :
    let stats := (q.run ctx .empty).2.stats
    let asked := ctx.request.unbound (q.lookups ctx .empty)
    stats.resolverCalls = (q.run ctx .empty).2.calls.length ∧ stats.resolverCalls = asked.toFinset.card ∧
      stats.resolverCalls + stats.cacheHits = asked.length ∧ stats.nodesVisited = q.visits ctx .empty := by
  intro stats asked
  have spent := q.run_spends ctx .empty
  have called : stats.resolverCalls = (q.run ctx .empty).2.calls.length :=
    spent.calls.trans (Nat.zero_add _)
  have distinct : (q.run ctx .empty).2.calls.length = asked.toFinset.card := by
    rw [← List.toFinset_card_of_nodup (q.run_logged (Cache.Logged.empty ctx)).nodup, q.calls_eq]
    congr 1
    ext a
    rw [List.mem_toFinset, List.mem_toFinset, List.mem_eraseDups]
  exact ⟨called, called.trans distinct, spent.lookups.trans (Nat.zero_add _),
    spent.nodes.trans (Nat.zero_add _)⟩

theorem Visit.respond_nodesVisited (ctx : Context) (p : Policy) :
    (p.respond ctx).2.stats.nodesVisited = (root p).cost ctx := by
  obtain ⟨_, _, _, visited⟩ := p.respondInquiry.counters ctx
  rw [p.run_respondInquiry] at visited
  rw [visited, Policy.respondInquiry, Inquiry.visits_andThen]
  exact congrArg (_ + ·) (Nat.le_zero.mp ((Outcome.inquiry_walks _).visits ctx _))

/-- After any evaluations in one context there was a call of the resolver for every attribute that was
looked up without being bound, and every other look-up of such an attribute was a hit; a look-up of a bound
attribute is neither. A response visits a node at least and every node of the tree at most, and all of them
exactly if it goes through every set to its last child. -/
theorem costs_counted (ctx : Context) :
    (∀ es : List Evaluation,
      let c := es.foldl (Evaluation.apply ctx) .empty
      let asked := ctx.request.unbound ((Evaluation.inquiryAll es).lookups ctx .empty)
      ((Evaluation.inquiryAll es).run ctx .empty).2 = c ∧
      c.stats.resolverCalls = c.calls.length ∧ c.stats.resolverCalls = asked.toFinset.card ∧
      c.stats.resolverCalls + c.stats.cacheHits = asked.length) ∧
    ∀ p : Policy,
      let visited := (p.respond ctx).2.stats.nodesVisited
      1 ≤ visited ∧ visited ≤ p.nodeCount ∧ (visited = p.nodeCount ↔ (Visit.root p).Exhausts ctx) := by
  constructor
  · intro es c asked
    have left : ((Evaluation.inquiryAll es).run ctx .empty).2 = c := Evaluation.run_inquiryAll es .empty
    obtain ⟨calls, distinct, all, _⟩ := (Evaluation.inquiryAll es).counters ctx
    rw [left] at calls distinct all
    exact ⟨left, calls, distinct, all⟩
  · intro p visited
    have same : visited = (Visit.root p).cost ctx := Visit.respond_nodesVisited ctx p
    rw [same]
    refine ⟨?_, p.inquiry_walks.visits ctx .empty, Visit.cost_eq_iff ctx (Visit.root p)⟩
    rw [Visit.cost_eq]
    exact Nat.le_add_right 1 _

theorem costs_counted_mixed :
    let level : AttributeId := ⟨.resource, "level", .integer, .single⟩
    let owner : AttributeId := ⟨.resource, "owner", .string, .single⟩
    let mail : AttributeId := ⟨.subject, "mail", .string, .single⟩
    let request := (Request.new "ann" "read" "doc1" ⟨2025, 1, 8, 10, 0, 0, 0, by decide⟩).bind level
      (.simple (.string "high"))
    let ctx : Context := ⟨request, .ofFunction fun a =>
      if a = owner then .ok none else .error (.unavailable "offline")⟩
    let rules : List Policy :=
      [.rule ⟨"all", none, none, .permit, []⟩, .rule ⟨"level", some (.ref level), none, .deny, []⟩]
    let all : Policy := .set ⟨"docs", none, .denyOverrides, []⟩ rules
    let first : Policy := .set ⟨"docs", none, .firstApplicable, []⟩ rules
    let es : List Evaluation := [.lookup level, .value (.call .isPresent [.ref owner]), .truth (.ref mail),
      .node all, .lookup mail, .lookup owner]
    let asked := ctx.request.unbound ((Evaluation.inquiryAll es).lookups ctx .empty)
    (es.foldl (Evaluation.apply ctx) .empty).stats = ⟨2, 2, 3⟩ ∧ asked = [owner, mail, mail, owner] ∧
      asked.toFinset.card = 2 ∧ (Visit.root all).Exhausts ctx ∧ ¬(Visit.root first).Exhausts ctx := by
  intro level owner mail request ctx rules all first es asked
  obtain ⟨counted, visited⟩ := costs_counted ctx
  have stats : (es.foldl (Evaluation.apply ctx) .empty).stats = ⟨2, 2, 3⟩ := rfl
  obtain ⟨_, _, distinct, _⟩ := counted es
  refine ⟨stats, rfl, distinct.symm.trans (by rw [stats]), (visited all).2.2.mp rfl, ?_⟩
  intro exhausted
  cases (visited first).2.2.mpr exhausted

end AccessControl
