import AccessControl.Proofs.Combine.Table
import AccessControl.Proofs.Eager.Policy

namespace AccessControl

/-- A node, and the cache that its evaluation starts from. -/
structure Visit where
  node : Policy
  start : Cache

namespace Visit

def root (p : Policy) : Visit := ⟨p, .empty⟩

variable (ctx : Context)

def outcome (v : Visit) : Outcome := (v.node.evaluate ctx v.start).1

/-- The children up to the first that settles, each with the cache that the one before it leaves. -/
def upToSettling (a : Algorithm) : List Policy → Cache → List Visit
  | [], _ => []
  | p :: ps, c =>
    ⟨p, c⟩ :: if a.settles (p.evaluate ctx c).1.decision then [] else upToSettling a ps (p.evaluate ctx c).2

/-- The visits that this one makes, in order. Only a set whose target holds makes any. -/
def children : Visit → List Visit
  | ⟨.rule _, _⟩ => []
  | ⟨.set h ps, c⟩ =>
    match holdsIfPresent ctx h.target c.visitNode with
    | (.ok true, d) => upToSettling ctx h.algorithm ps d
    | _ => []

theorem evaluateChildren_eq (a : Algorithm) (ps : List Policy) (c : Cache) :
    (Policy.evaluateChildren ctx a ps c).1 = (upToSettling ctx a ps c).map (outcome ctx) := by
  induction ps generalizing c with
  | nil => rfl
  | cons p ps ih =>
    rw [Policy.evaluateChildren_cons, Cache.andThen, upToSettling, List.map_cons]
    cases a.settles (p.evaluate ctx c).1.decision with
    | true => rfl
    | false => exact congrArg (_ :: ·) (ih _)

theorem upToSettling_pulled (a : Algorithm) (ps : List Policy) (c : Cache) :
    a.pulled ((upToSettling ctx a ps c).map (outcome ctx)) = (upToSettling ctx a ps c).map (outcome ctx) := by
  induction ps generalizing c with
  | nil => rfl
  | cons p ps ih =>
    rw [upToSettling, List.map_cons, Algorithm.pulled, outcome]
    cases a.settles (p.evaluate ctx c).1.decision with
    | true => rfl
    | false => exact congrArg (_ :: ·) (ih _)

theorem mem_upToSettling {a : Algorithm} {ps : List Policy} {c : Cache} {w : Visit}
    (member : w ∈ upToSettling ctx a ps c) : w.node ∈ ps := by
  induction ps generalizing c with
  | nil => cases member
  | cons p ps ih =>
    rcases List.mem_cons.mp member with rfl | member
    · exact List.mem_cons_self
    · split at member
      · cases member
      · exact List.mem_cons_of_mem p (ih member)

theorem mem_children {v w : Visit} (member : w ∈ v.children ctx) : w.node ∈ v.node.children := by
  obtain ⟨p, c⟩ := v
  cases p with
  | rule r => cases member
  | set h ps =>
    rcases target : holdsIfPresent ctx h.target c.visitNode with ⟨e | _ | _, d⟩
    · simp [children, target] at member
    · simp [children, target] at member
    · simp only [children, target] at member
      exact mem_upToSettling ctx member

theorem outcome_rule (r : Rule) (c : Cache) : ∃ b, outcome ctx ⟨.rule r, c⟩ = r.outcome b := by
  rw [outcome, Policy.evaluate, Rule.evaluate_eq]
  exact ⟨_, rfl⟩

theorem outcome_set (h : SetHeader) (ps : List Policy) (c : Cache) :
    (∃ e, (holdsIfPresent ctx h.target c.visitNode).1 = .error e ∧
      outcome ctx ⟨.set h ps, c⟩ = Policy.targetFailure (.set h ps) e) ∨
    outcome ctx ⟨.set h ps, c⟩ = .notApplicable ∨
    ∃ d, children ctx ⟨.set h ps, c⟩ = upToSettling ctx h.algorithm ps d ∧
      outcome ctx ⟨.set h ps, c⟩ = h.addObligations (h.algorithm.reduce h.id
        ((children ctx ⟨.set h ps, c⟩).map (outcome ctx))) := by
  rcases target : holdsIfPresent ctx h.target c.visitNode with ⟨e | _ | _, d⟩
  · exact .inl ⟨e, rfl, by simp only [outcome, Policy.evaluate_set, Cache.andThen, target]⟩
  · exact .inr (.inl (by simp only [outcome, Policy.evaluate_set, Cache.andThen, target]))
  · have visited : children ctx ⟨.set h ps, c⟩ = upToSettling ctx h.algorithm ps d := by
      simp only [children, target]
    refine .inr (.inr ⟨d, visited, ?_⟩)
    rw [visited, ← evaluateChildren_eq]
    simp only [outcome, Policy.evaluate_set, Cache.andThen, target]

end Visit

end AccessControl
