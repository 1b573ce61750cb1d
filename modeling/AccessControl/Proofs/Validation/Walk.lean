import AccessControl.Policy.Validate
import AccessControl.Proofs.Induction

namespace AccessControl

namespace PolicyError

def raise : Option PolicyError → Except PolicyError Unit
  | none => .ok ()
  | some e => .error e

theorem raise_bind (wrong : Prop) [Decidable wrong] (e : PolicyError) (rest : Except PolicyError Unit) :
    (raise (if wrong then some e else none) >>= fun _ => rest) = if wrong then .error e else rest := by
  split <;> rfl

end PolicyError

namespace Expression

mutual

/-- The expression and everything inside it, each in front of its own parts. -/
def subexpressions : Expression → List Expression
  | literal v => [literal v]
  | ref a => [ref a]
  | compare op l r => compare op l r :: (l.subexpressions ++ r.subexpressions)
  | and es => and es :: subexpressionsOf es
  | or es => or es :: subexpressionsOf es
  | not e => not e :: e.subexpressions
  | call f es => call f es :: subexpressionsOf es

def subexpressionsOf : List Expression → List Expression
  | [] => []
  | e :: es => e.subexpressions ++ subexpressionsOf es

end

def isReference : Expression → Bool
  | ref _ => true
  | _ => false

def violation? (catalog : Catalog) (node : String) : Expression → Option PolicyError
  | literal (.bag b) => if b.isHomogeneous then none else some (.heterogeneousBag node)
  | ref a =>
    match catalog.get? a.category a.name with
    | none => some (.undeclaredAttribute node a)
    | some declared => if declared = a then none else some (.attributeMismatch node declared a)
  | call f es =>
    if es.length ≠ f.arity then some (.arity node f es.length)
    else if f = .isPresent ∧ ¬es.all isReference then some (.isPresentArgument node)
    else none
  | _ => none

end Expression

/-- Something that is checked on its own, with the path that an error names. -/
inductive Site where
  | depth (depth : Nat)
  | name (parent id : String)
  | sibling (parent : String) (earlier : List String) (id : String)
  | fulfillment (rule : String) (effect : Effect) (obligation : Obligation)
  | expression (node : String) (e : Expression)

namespace Site

def violation? (catalog : Catalog) (maxDepth : Nat) : Site → Option PolicyError
  | depth d => if maxDepth < d then some (.tooDeep maxDepth) else none
  | name parent id => if id = "" then some (.emptyId parent) else none
  | sibling parent earlier id => if id ∈ earlier then some (.duplicateId parent id) else none
  | fulfillment rule effect o => if o.fulfillOn ≠ effect then some (.obligationEffect rule o.id) else none
  | expression node e => e.violation? catalog node

/-- What is wrong at the first site that is not in order. -/
def report (catalog : Catalog) (maxDepth : Nat) (sites : List Site) : Except PolicyError Unit :=
  PolicyError.raise (sites.findSome? (violation? catalog maxDepth))

end Site

def Expression.walk (path : String) (e : Expression) : List Site := e.subexpressions.map (.expression path)

def Expression.walkIfPresent (path : String) (e : Option Expression) : List Site :=
  e.toList.flatMap (walk path)

def Obligation.walk (path : String) (o : Obligation) : List Site :=
  .name path o.id :: o.assignments.flatMap fun a => a.value.walk (path ++ "#" ++ o.id)

def Rule.walk (path : String) (r : Rule) : List Site :=
  Expression.walkIfPresent path r.target ++ (Expression.walkIfPresent path r.condition ++
    (r.obligations.map (.fulfillment path r.effect) ++ r.obligations.flatMap (Obligation.walk path)))

def SetHeader.walk (path : String) (h : SetHeader) : List Site :=
  Expression.walkIfPresent path h.target ++ h.obligations.flatMap (Obligation.walk path)

namespace Policy

mutual

/-- The sites of a tree whose root lies at this path and depth. -/
def walkNode (path : String) (depth : Nat) : Policy → List Site
  | rule r => .depth depth :: r.walk path
  | set h ps => .depth depth :: (h.walk path ++ walkChildren path (depth + 1) [] ps)

def walkChildren (path : String) (depth : Nat) (earlier : List String) : List Policy → List Site
  | [] => []
  | p :: ps =>
    .name path p.id :: .sibling path earlier p.id ::
      (p.walkNode (path ++ "/" ++ p.id) depth ++ walkChildren path depth (p.id :: earlier) ps)

end

def walk (p : Policy) : List Site := .name "<root>" p.id :: p.walkNode p.id 1

end Policy

open Site (report)

variable (catalog : Catalog) (maxDepth : Nat)

namespace Site

theorem report_cons (s : Site) (sites : List Site) :
    report catalog maxDepth (s :: sites) =
      PolicyError.raise (s.violation? catalog maxDepth) >>= fun _ => report catalog maxDepth sites := by
  rw [report, List.findSome?_cons]
  cases s.violation? catalog maxDepth <;> rfl

theorem report_append (first second : List Site) :
    report catalog maxDepth (first ++ second) =
      report catalog maxDepth first >>= fun _ => report catalog maxDepth second := by
  induction first with
  | nil => rfl
  | cons s first ih =>
    rw [List.cons_append, report_cons, report_cons, ih]
    cases s.violation? catalog maxDepth <;> rfl

theorem report_ok {sites : List Site} :
    report catalog maxDepth sites = .ok () ↔ ∀ s ∈ sites, s.violation? catalog maxDepth = none := by
  rw [← List.findSome?_eq_none_iff, report]
  cases sites.findSome? (violation? catalog maxDepth) <;> simp [PolicyError.raise]

theorem report_error {sites : List Site} {e : PolicyError} :
    report catalog maxDepth sites = .error e ↔ ∃ before s after, sites = before ++ s :: after ∧
      (∀ t ∈ before, t.violation? catalog maxDepth = none) ∧ s.violation? catalog maxDepth = some e := by
  have first : sites.findSome? (violation? catalog maxDepth) = some e ↔ _ := List.findSome?_eq_some_iff
  simp only [and_comm (a := violation? _ _ _ = some e)] at first
  rw [← first, report]
  cases sites.findSome? (violation? catalog maxDepth) <;> simp [PolicyError.raise]

end Site

variable (path : String)

namespace Expression

theorem validate_call_eq_raise (f : Function) (es : List Expression) :
    f.validate path es = PolicyError.raise ((call f es).violation? catalog path) := by
  unfold Function.validate violation?
  by_cases number : es.length ≠ f.arity
  · simp [number, PolicyError.raise]
  · by_cases test : f = .isPresent
    · subst test
      match es with
      | [] => simp [Function.arity] at number
      | [e] => cases e <;> simp [isReference, Function.arity, PolicyError.raise]
      | _ :: _ :: _ => simp [Function.arity] at number
    · simp [number, test, PolicyError.raise]

theorem validateAll_eq_report {es : List Expression}
    (each : ∀ e ∈ es, e.validate catalog path = report catalog maxDepth (e.walk path)) :
    validateAll catalog path es =
      report catalog maxDepth ((subexpressionsOf es).map (Site.expression path)) := by
  induction es with
  | nil => rfl
  | cons e es ih =>
    obtain ⟨head, tail⟩ := List.forall_mem_cons.mp each
    rw [subexpressionsOf, List.map_append, Site.report_append, validateAll, head, ih tail]
    rfl

theorem report_walk {e : Expression} {parts : List Expression} (inside : e.subexpressions = e :: parts) :
    report catalog maxDepth (e.walk path) = PolicyError.raise (e.violation? catalog path) >>= fun _ =>
      report catalog maxDepth (parts.map (Site.expression path)) := by
  rw [walk, inside, List.map_cons, Site.report_cons]
  rfl

theorem validate_literal_eq_raise (v : AttributeValue) :
    v.validate path = PolicyError.raise ((literal v).violation? catalog path) := by
  cases v with
  | simple v => rfl
  | bag b =>
    rw [AttributeValue.validate, violation?]
    split <;> rfl

theorem validate_ref_eq_raise (a : AttributeId) :
    a.validate catalog path = PolicyError.raise ((ref a).violation? catalog path) := by
  rw [AttributeId.validate, violation?]
  cases catalog.get? a.category a.name with
  | none => rfl
  | some declared =>
    simp only []
    split <;> rfl

theorem validate_eq_report (e : Expression) :
    e.validate catalog path = report catalog maxDepth (e.walk path) := by
  induction e with
  | literal v =>
    rw [report_walk catalog maxDepth path rfl, ← validate_literal_eq_raise, validate]
    cases v.validate path <;> rfl
  | ref a =>
    rw [report_walk catalog maxDepth path rfl, ← validate_ref_eq_raise, validate]
    cases a.validate catalog path <;> rfl
  | compare op l r left right =>
    rw [report_walk catalog maxDepth path rfl, List.map_append, Site.report_append, validate, left, right]
    rfl
  | and es each =>
    rw [report_walk catalog maxDepth path rfl, validate, validateAll_eq_report catalog maxDepth path each]
    rfl
  | or es each =>
    rw [report_walk catalog maxDepth path rfl, validate, validateAll_eq_report catalog maxDepth path each]
    rfl
  | not e operand =>
    rw [report_walk catalog maxDepth path rfl, validate, operand]
    rfl
  | call f es each =>
    rw [report_walk catalog maxDepth path rfl, validate, validateAll_eq_report catalog maxDepth path each,
      validate_call_eq_raise]

theorem validateIfPresent_eq_report (e : Option Expression) :
    validateIfPresent catalog path e = report catalog maxDepth (walkIfPresent path e) := by
  cases e with
  | none => rfl
  | some e =>
    rw [validateIfPresent, e.validate_eq_report catalog maxDepth, walkIfPresent, Option.toList_some,
      List.flatMap_singleton]

end Expression

namespace Obligation

theorem validate_eq_report (o : Obligation) :
    o.validate catalog path = report catalog maxDepth (o.walk path) := by
  have assigned (as : List AssignmentRule) (location : String) :
      Expression.validateAll catalog location (as.map AssignmentRule.value) =
        report catalog maxDepth (as.flatMap fun a => a.value.walk location) := by
    induction as with
    | nil => rfl
    | cons a as ih =>
      rw [List.map_cons, Expression.validateAll, List.flatMap_cons, Site.report_append, ih,
        a.value.validate_eq_report catalog maxDepth]
  rw [walk, Site.report_cons, ← assigned, validate, Site.violation?, PolicyError.raise_bind]
  simp only [String.isEmpty_iff]

theorem validateAll_eq_report (os : List Obligation) :
    validateAll catalog path os = report catalog maxDepth (os.flatMap (walk path)) := by
  induction os with
  | nil => rfl
  | cons o os ih =>
    rw [validateAll, List.flatMap_cons, Site.report_append, ih, o.validate_eq_report catalog maxDepth]

theorem validateEffects_eq_report (e : Effect) (os : List Obligation) :
    validateEffects path e os = report catalog maxDepth (os.map (.fulfillment path e)) := by
  induction os with
  | nil => rfl
  | cons o os ih =>
    rw [validateEffects, List.map_cons, Site.report_cons, ← ih, Site.violation?, PolicyError.raise_bind,
      ite_not]

end Obligation

theorem Rule.validate_eq_report (r : Rule) :
    r.validate catalog path = report catalog maxDepth (r.walk path) := by
  simp only [validate, walk, Site.report_append, Expression.validateIfPresent_eq_report catalog maxDepth,
    Obligation.validateEffects_eq_report catalog maxDepth, Obligation.validateAll_eq_report catalog maxDepth]

theorem SetHeader.validate_eq_report (h : SetHeader) :
    h.validate catalog path = report catalog maxDepth (h.walk path) := by
  simp only [validate, walk, Site.report_append, Expression.validateIfPresent_eq_report catalog maxDepth,
    Obligation.validateAll_eq_report catalog maxDepth]

namespace Policy

theorem validateId_bind (earlier : List String) (id : String)
    (rest : Except PolicyError Unit) (sites : List Site)
    (reported : rest = report catalog maxDepth sites) :
    (validateId path earlier id >>= fun _ => rest) =
      report catalog maxDepth (.name path id :: .sibling path earlier id :: sites) := by
  simp only [Site.report_cons, ← reported, Site.violation?, PolicyError.raise_bind, validateId,
    String.isEmpty_iff, List.contains_iff_mem]
  by_cases empty : id = ""
  · simp only [empty, if_true]
    rfl
  · simp only [empty, if_false]
    split <;> rfl

theorem validateChildren_eq_report (depth : Nat) {ps : List Policy}
    (each : ∀ p ∈ ps, ∀ path depth,
      p.validateNode catalog maxDepth path depth = report catalog maxDepth (p.walkNode path depth))
    (earlier : List String) :
    validateChildren catalog maxDepth path depth earlier ps =
      report catalog maxDepth (walkChildren path depth earlier ps) := by
  induction ps generalizing earlier with
  | nil => rfl
  | cons p ps ih =>
    obtain ⟨head, tail⟩ := List.forall_mem_cons.mp each
    rw [validateChildren, walkChildren]
    apply validateId_bind
    rw [Site.report_append, head, ih tail]

theorem validateNode_eq_report (p : Policy) (depth : Nat) :
    p.validateNode catalog maxDepth path depth = report catalog maxDepth (p.walkNode path depth) := by
  induction p generalizing path depth with
  | rule r =>
    rw [walkNode, Site.report_cons, validateNode, r.validate_eq_report catalog maxDepth, Site.violation?,
      PolicyError.raise_bind]
  | set h ps each =>
    have children := validateChildren_eq_report catalog maxDepth path (depth + 1)
      (fun p member path depth => each p member path depth) []
    rw [walkNode, Site.report_cons, Site.report_append, validateNode, children,
      h.validate_eq_report catalog maxDepth, Site.violation?, PolicyError.raise_bind]

/-- Validation reports the first site of the walk that is not in order. -/
theorem validate_eq_report (p : Policy) : p.validate catalog maxDepth = report catalog maxDepth p.walk := by
  rw [walk, Site.report_cons, ← p.validateNode_eq_report, validate, Site.violation?, PolicyError.raise_bind]
  simp only [String.isEmpty_iff]

end Policy

end AccessControl
