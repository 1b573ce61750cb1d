import AccessControl.Proofs.References.Mentions
import AccessControl.Proofs.Validation.Walk

namespace AccessControl

def Bag.Uniform (b : Bag) : Prop := ∀ v ∈ b.values, ∀ w ∈ b.values, v.valueType = w.valueType

theorem Bag.isHomogeneous_iff {b : Bag} : b.isHomogeneous = true ↔ b.Uniform := by
  obtain ⟨values, ordered⟩ := b
  cases values with
  | nil => simp [isHomogeneous, elementType?, Uniform]
  | cons v vs =>
    simp only [isHomogeneous, elementType?, List.head?_cons, Option.map_some, List.all_eq_true, beq_iff_eq]
    constructor
    · intro same x first y second
      rw [same x first, same y second]
    · intro uniform w member
      exact uniform w member v List.mem_cons_self

namespace Expression

def Sound (catalog : Catalog) : Expression → Prop
  | literal (.bag b) => b.Uniform
  | ref a => catalog.get? a.category a.name = some a
  | call f es => es.length = f.arity ∧ (f = .isPresent → ∀ e ∈ es, ∃ a, e = ref a)
  | _ => True

def WellFormed (catalog : Catalog) (e : Expression) : Prop := ∀ s ∈ e.subexpressions, s.Sound catalog

end Expression

namespace Policy

/-- The rules for a node apart from what stands below its children. -/
structure Sound (catalog : Catalog) (p : Policy) : Prop where
  children_named : ∀ c ∈ p.children, c.id ≠ ""
  children_distinct : (p.children.map id).Nodup
  obligations_named : ∀ o ∈ p.obligations, o.id ≠ ""
  obligations_effective : ∀ r, p = rule r → ∀ o ∈ r.obligations, o.fulfillOn = r.effect
  expressions : ∀ e ∈ p.expressions, e.WellFormed catalog

structure WellFormed (catalog : Catalog) (maxDepth : Nat) (p : Policy) : Prop where
  shallow : p.depth ≤ maxDepth
  named : p.id ≠ ""
  nodes : ∀ q ∈ p.nodes, q.Sound catalog

end Policy

variable {catalog : Catalog} {maxDepth : Nat} {path : String}

theorem Expression.violation?_eq_none {e : Expression} :
    e.violation? catalog path = none ↔ e.Sound catalog := by
  cases e with
  | literal v =>
    cases v with
    | simple v => simp [violation?, Sound]
    | bag b => simp [violation?, Sound, ← Bag.isHomogeneous_iff]
  | ref a =>
    cases declared : catalog.get? a.category a.name with
    | none => simp [violation?, Sound, declared]
    | some d => simp [violation?, Sound, declared]
  | call f es =>
    have reference (e : Expression) : e.isReference = true ↔ ∃ a, e = ref a := by
      cases e <;> simp [isReference]
    by_cases number : es.length = f.arity
    · simp [violation?, Sound, number, reference]
    · simp [violation?, Sound, number]
  | _ => simp [violation?, Sound]

def Site.Clear (catalog : Catalog) (maxDepth : Nat) (sites : List Site) : Prop :=
  ∀ s ∈ sites, s.violation? catalog maxDepth = none

open Site (Clear)

namespace Site

theorem clear_cons {s : Site} {sites : List Site} :
    Clear catalog maxDepth (s :: sites) ↔
      s.violation? catalog maxDepth = none ∧ Clear catalog maxDepth sites :=
  List.forall_mem_cons

theorem clear_append {first second : List Site} :
    Clear catalog maxDepth (first ++ second) ↔ Clear catalog maxDepth first ∧ Clear catalog maxDepth second :=
  List.forall_mem_append

theorem clear_flatMap {α : Type} {as : List α} {f : α → List Site} :
    Clear catalog maxDepth (as.flatMap f) ↔ ∀ a ∈ as, Clear catalog maxDepth (f a) :=
  List.forall_mem_flatMap

theorem name_clear {parent id : String} : (name parent id).violation? catalog maxDepth = none ↔ id ≠ "" := by
  simp [violation?]

theorem sibling_clear {parent id : String} {earlier : List String} :
    (sibling parent earlier id).violation? catalog maxDepth = none ↔ id ∉ earlier := by
  simp [violation?]

end Site

theorem Expression.clear_walk {e : Expression} :
    Clear catalog maxDepth (e.walk path) ↔ e.WellFormed catalog := by
  simp only [Clear, walk, List.forall_mem_map, Site.violation?, violation?_eq_none, WellFormed]

theorem Expression.clear_walkIfPresent {e : Option Expression} :
    Clear catalog maxDepth (walkIfPresent path e) ↔ ∀ x ∈ e.toList, x.WellFormed catalog := by
  simp only [walkIfPresent, Site.clear_flatMap, clear_walk]

theorem Obligation.clear_walk {o : Obligation} :
    Clear catalog maxDepth (o.walk path) ↔
      o.id ≠ "" ∧ ∀ e ∈ o.assignments.map AssignmentRule.value, e.WellFormed catalog := by
  simp only [walk, Site.clear_cons, Site.name_clear, Site.clear_flatMap, Expression.clear_walk,
    List.forall_mem_map]

namespace Policy

theorem depthOf_le {ps : List Policy} {d : Nat} :
    d + depthOf ps ≤ maxDepth ↔ d ≤ maxDepth ∧ ∀ p ∈ ps, d + p.depth ≤ maxDepth := by
  induction ps with
  | nil => simp [depthOf]
  | cons p ps ih =>
    rw [depthOf, List.forall_mem_cons, and_left_comm, ← ih]
    omega

theorem forall_mem_nodesOf {P : Policy → Prop} {ps : List Policy} :
    (∀ q ∈ nodesOf ps, P q) ↔ ∀ p ∈ ps, ∀ q ∈ p.nodes, P q := by
  constructor
  · exact fun all p member q node => all q (nodes_subset_nodesOf member node)
  · intro each q node
    obtain ⟨p, member, node⟩ := mem_nodesOf.mp node
    exact each p member q node

theorem obligations_clear {os : List Obligation} :
    Clear catalog maxDepth (os.flatMap (Obligation.walk path)) ↔
      (∀ o ∈ os, o.id ≠ "") ∧
        ∀ e ∈ os.flatMap (fun o => o.assignments.map AssignmentRule.value), e.WellFormed catalog := by
  simp only [Site.clear_flatMap, Obligation.clear_walk, List.forall_mem_flatMap, forall₂_and]

theorem forall_expressions {P : Expression → Prop} {p : Policy} :
    (∀ e ∈ p.expressions, P e) ↔ (∀ e ∈ p.target.toList, P e) ∧ (∀ e ∈ p.condition.toList, P e) ∧
      ∀ e ∈ p.obligations.flatMap (fun o => o.assignments.map AssignmentRule.value), P e := by
  simp only [expressions, List.forall_mem_append, and_assoc]

theorem rule_sound {r : Rule} : (rule r).Sound catalog ↔ Clear catalog maxDepth (r.walk path) := by
  have effective : Clear catalog maxDepth (r.obligations.map (.fulfillment path r.effect)) ↔
      ∀ o ∈ r.obligations, o.fulfillOn = r.effect := by
    simp [Clear, Site.violation?]
  simp only [Rule.walk, Site.clear_append, Expression.clear_walkIfPresent, effective, obligations_clear]
  constructor
  · rintro ⟨_, _, named, effective, expressions⟩
    obtain ⟨target, condition, assigned⟩ := forall_expressions.mp expressions
    exact ⟨target, condition, effective r rfl, named, assigned⟩
  · rintro ⟨target, condition, effective, named, assigned⟩
    refine ⟨List.forall_mem_nil _, List.nodup_nil, named, ?_, ?_⟩
    · rintro _ ⟨⟩
      exact effective
    · exact forall_expressions.mpr ⟨target, condition, assigned⟩

theorem set_sound {h : SetHeader} {ps : List Policy} :
    (set h ps).Sound catalog ↔
      Clear catalog maxDepth (h.walk path) ∧ (∀ p ∈ ps, p.id ≠ "") ∧ (ps.map id).Nodup := by
  simp only [SetHeader.walk, Site.clear_append, Expression.clear_walkIfPresent, obligations_clear]
  constructor
  · rintro ⟨childrenNamed, distinct, named, _, expressions⟩
    obtain ⟨target, _, assigned⟩ := forall_expressions.mp expressions
    exact ⟨⟨target, named, assigned⟩, childrenNamed, distinct⟩
  · rintro ⟨⟨target, named, assigned⟩, childrenNamed, distinct⟩
    refine ⟨childrenNamed, distinct, named, ?_, ?_⟩
    · rintro _ ⟨⟩
    · exact forall_expressions.mpr ⟨target, List.forall_mem_nil _, assigned⟩

theorem clear_walkChildren {depth : Nat} {earlier : List String} {ps : List Policy} :
    Clear catalog maxDepth (walkChildren path depth earlier ps) ↔
      ((∀ p ∈ ps, p.id ≠ "") ∧ (ps.map id).Nodup) ∧ (∀ p ∈ ps, p.id ∉ earlier) ∧
        ∀ p ∈ ps, Clear catalog maxDepth (p.walkNode (path ++ "/" ++ p.id) depth) := by
  induction ps generalizing earlier with
  | nil => simp [walkChildren, Clear]
  | cons p ps ih =>
    have apart : (∀ q ∈ ps, q.id ∉ p.id :: earlier) ↔ p.id ∉ ps.map id ∧ ∀ q ∈ ps, q.id ∉ earlier := by
      simp only [List.mem_cons, not_or, forall₂_and, List.mem_map, not_exists, not_and]
    simp only [walkChildren, Site.clear_cons, Site.clear_append, Site.name_clear, Site.sibling_clear, ih,
      apart, List.forall_mem_cons, List.map_cons, List.nodup_cons]
    constructor
    · rintro ⟨named, fresh, node, ⟨others, distinct⟩, ⟨first, apart⟩, nodes⟩
      exact ⟨⟨⟨named, others⟩, first, distinct⟩, ⟨fresh, apart⟩, node, nodes⟩
    · rintro ⟨⟨⟨named, others⟩, first, distinct⟩, ⟨fresh, apart⟩, node, nodes⟩
      exact ⟨named, fresh, node, ⟨others, distinct⟩, ⟨first, apart⟩, nodes⟩

theorem clear_walkNode {p : Policy} {d : Nat} :
    Clear catalog maxDepth (p.walkNode path (d + 1)) ↔
      d + p.depth ≤ maxDepth ∧ ∀ q ∈ p.nodes, q.Sound catalog := by
  have reached (d : Nat) : (Site.depth d).violation? catalog maxDepth = none ↔ d ≤ maxDepth := by
    simp [Site.violation?]
  induction p generalizing path d with
  | rule r =>
    simp only [walkNode, Site.clear_cons, reached, nodes, depth, List.forall_mem_singleton, ← rule_sound]
  | set h ps each =>
    have children : (∀ p ∈ ps, Clear catalog maxDepth (p.walkNode (path ++ "/" ++ p.id) (d + 1 + 1))) ↔
        ∀ p ∈ ps, d + 1 + p.depth ≤ maxDepth ∧ ∀ q ∈ p.nodes, q.Sound catalog :=
      forall₂_congr fun p member => each p member
    simp only [walkNode, Site.clear_cons, Site.clear_append, reached, clear_walkChildren, children, nodes,
      depth, ← Nat.add_assoc, depthOf_le, List.forall_mem_cons, forall_mem_nodesOf, forall₂_and]
    rw [@set_sound catalog maxDepth path h ps]
    constructor
    · rintro ⟨here, own, siblings, _, below, nodes⟩
      exact ⟨⟨here, below⟩, ⟨own, siblings⟩, nodes⟩
    · rintro ⟨⟨here, below⟩, ⟨own, siblings⟩, nodes⟩
      exact ⟨here, own, siblings, fun _ _ => List.not_mem_nil, below, nodes⟩

theorem validate_ok {p : Policy} : p.validate catalog maxDepth = .ok () ↔ p.WellFormed catalog maxDepth := by
  have root := @clear_walkNode catalog maxDepth p.id p 0
  rw [Nat.zero_add, Nat.zero_add] at root
  rw [validate_eq_report, Site.report_ok]
  change Clear catalog maxDepth (.name "<root>" p.id :: p.walkNode p.id 1) ↔ _
  rw [Site.clear_cons, Site.name_clear, root]
  constructor
  · rintro ⟨named, shallow, nodes⟩
    exact ⟨shallow, named, nodes⟩
  · rintro ⟨shallow, named, nodes⟩
    exact ⟨named, shallow, nodes⟩

/-- Validation accepts exactly the well-formed trees, and otherwise reports what is wrong at the first
site of the walk that is not in order. -/
theorem validate_iff_wellFormed (catalog : Catalog) (maxDepth : Nat) (p : Policy) :
    (p.validate catalog maxDepth = .ok () ↔ p.WellFormed catalog maxDepth) ∧
      ∀ e, p.validate catalog maxDepth = .error e ↔ ∃ before s after, p.walk = before ++ s :: after ∧
        (∀ t ∈ before, t.violation? catalog maxDepth = none) ∧ s.violation? catalog maxDepth = some e := by
  refine ⟨validate_ok, fun e => ?_⟩
  rw [validate_eq_report, Site.report_error]

end Policy

end AccessControl
