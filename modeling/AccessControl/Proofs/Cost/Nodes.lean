import Mathlib.Algebra.Order.Ring.Nat
import AccessControl.Proofs.Inquiry.Walk
import AccessControl.Proofs.Visit

namespace AccessControl

namespace Policy

def at? : Policy → List Nat → Option Policy
  | p, [] => some p
  | p, i :: path => p.children[i]?.bind fun q => q.at? path

theorem nodeCountOf_eq (ps : List Policy) : nodeCountOf ps = (ps.map nodeCount).sum := by
  induction ps with
  | nil => rfl
  | cons p ps ih => rw [nodeCountOf, ih, List.map_cons, List.sum_cons]

theorem nodeCount_pos (p : Policy) : 0 < p.nodeCount := by
  cases p with
  | rule r => exact Nat.one_pos
  | set h ps =>
    rw [nodeCount]
    omega

end Policy

theorem sum_map_eq_iff {α : Type} {f g : α → Nat} {as : List α} (le : ∀ a ∈ as, f a ≤ g a) :
    (as.map f).sum ≤ (as.map g).sum ∧ ((as.map f).sum = (as.map g).sum ↔ ∀ a ∈ as, f a = g a) := by
  induction as with
  | nil => simp
  | cons a as ih =>
    obtain ⟨head, tail⟩ := List.forall_mem_cons.mp le
    obtain ⟨rest, equal⟩ := ih tail
    simp only [List.map_cons, List.sum_cons, List.forall_mem_cons, ← equal]
    omega

namespace Visit

variable (ctx : Context)

/-- The visit of the node at a position, if the evaluation reaches it. -/
def at? : Visit → List Nat → Option Visit
  | v, [] => some v
  | v, i :: path => (v.children ctx)[i]?.bind fun w => w.at? path

/-- Every set with children that stands at or below the node is visited, has a target that is absent or
true, and its last child is visited. -/
def Exhausts (v : Visit) : Prop :=
  ∀ path h ps, v.node.at? path = some (.set h ps) → ps ≠ [] →
    ∃ w, v.at? ctx path = some w ∧ (holdsIfPresent ctx h.target w.start.visitNode).1 = .ok true ∧
      (w.children ctx)[ps.length - 1]?.isSome

def cost (v : Visit) : Nat := v.node.inquiry.visits ctx v.start

theorem childrenInquiry_visits (a : Algorithm) (ps : List Policy) (c : Cache) :
    (Policy.childrenInquiry a ps).visits ctx c = ((upToSettling ctx a ps c).map (cost ctx)).sum := by
  induction ps generalizing c with
  | nil => rfl
  | cons p ps ih =>
    rw [Policy.childrenInquiry, Inquiry.visits_andThen, p.run_inquiry, upToSettling, List.map_cons,
      List.sum_cons, cost]
    cases a.settles (p.evaluate ctx c).1.decision with
    | true => rfl
    | false => exact congrArg (_ + ·) ((Inquiry.visits_map ctx _ _ _).trans (ih _))

theorem cost_eq (v : Visit) : v.cost ctx = 1 + ((v.children ctx).map (cost ctx)).sum := by
  obtain ⟨p, c⟩ := v
  cases p with
  | rule r => exact congrArg (1 + ·) (Nat.le_zero.mp (r.inquiry_walks.visits ctx c.visitNode))
  | set h ps =>
    have target := Nat.le_zero.mp ((Expression.inquiryIfPresent_walks h.target).visits ctx c.visitNode)
    rw [cost, Policy.inquiry, Inquiry.visits, Inquiry.visits_andThen, target, Nat.zero_add,
      Expression.run_inquiryIfPresent, children]
    rcases holdsIfPresent ctx h.target c.visitNode with ⟨e | _ | _, d⟩
    · rfl
    · rfl
    · exact congrArg (1 + ·) ((Inquiry.visits_map ctx _ _ _).trans (childrenInquiry_visits ctx _ _ _))

theorem upToSettling_inOrder (a : Algorithm) (ps : List Policy) (c : Cache) :
    (upToSettling ctx a ps c).map node <+: ps := by
  induction ps generalizing c with
  | nil => exact List.prefix_rfl
  | cons p ps ih =>
    rw [upToSettling, List.map_cons, List.prefix_cons_inj]
    cases a.settles (p.evaluate ctx c).1.decision with
    | true => exact List.nil_prefix
    | false => exact ih _

theorem children_inOrder (h : SetHeader) (ps : List Policy) (c : Cache) :
    (children ctx ⟨.set h ps, c⟩).map node <+: ps ∧
    (children ctx ⟨.set h ps, c⟩ ≠ [] → (holdsIfPresent ctx h.target c.visitNode).1 = .ok true) := by
  rcases target : holdsIfPresent ctx h.target c.visitNode with ⟨e | _ | _, d⟩
  · simp [children, target]
  · simp [children, target]
  · simp only [children, target]
    exact ⟨upToSettling_inOrder ctx h.algorithm ps d, fun _ => trivial⟩

theorem node_of_children {h : SetHeader} {ps : List Policy} {c : Cache} {i : Nat} {w : Visit}
    (found : (children ctx ⟨.set h ps, c⟩)[i]? = some w) : ps[i]? = some w.node := by
  obtain ⟨rest, split⟩ := (children_inOrder ctx h ps c).1
  obtain ⟨bound, _⟩ := List.getElem?_eq_some_iff.mp found
  rw [← split, List.getElem?_append_left (by rwa [List.length_map]), List.getElem?_map, found]
  rfl

theorem exhausts_set (h : SetHeader) (ps : List Policy) (c : Cache) :
    Exhausts ctx ⟨.set h ps, c⟩ ↔ (children ctx ⟨.set h ps, c⟩).length = ps.length ∧
      ∀ w ∈ children ctx ⟨.set h ps, c⟩, w.Exhausts ctx := by
  obtain ⟨inOrder, holds⟩ := children_inOrder ctx h ps c
  have few := inOrder.length_le
  rw [List.length_map] at few
  constructor
  · intro exhausts
    constructor
    · by_cases empty : ps = []
      · rw [empty] at few ⊢
        exact Nat.le_zero.mp few
      · obtain ⟨w, ⟨⟩, _, last⟩ := exhausts [] h ps rfl empty
        have bound : ps.length - 1 < (children ctx ⟨.set h ps, c⟩).length := by simpa using last
        omega
    · intro w member path h' ps' found more
      obtain ⟨i, visited⟩ := List.mem_iff_getElem?.mp member
      have below : (Policy.set h ps).at? (i :: path) = some (.set h' ps') := by
        rw [Policy.at?, Policy.children, node_of_children ctx visited]
        exact found
      have reached := exhausts (i :: path) h' ps' below more
      rw [at?, visited] at reached
      exact reached
  · rintro ⟨all, each⟩ path h' ps' found more
    cases path with
    | nil =>
      cases found
      have some : 0 < ps.length := List.length_pos_iff.mpr more
      refine ⟨_, rfl, holds (List.ne_nil_of_length_pos (by omega)), ?_⟩
      rw [List.getElem?_eq_getElem (by omega)]
      rfl
    | cons i path =>
      obtain ⟨q, child, below⟩ := Option.bind_eq_some_iff.mp found
      obtain ⟨bound, _⟩ := List.getElem?_eq_some_iff.mp child
      have visited := List.getElem?_eq_getElem (all ▸ bound)
      have same := (node_of_children ctx visited).symm.trans child
      cases same
      obtain ⟨u, reached, complete⟩ := each _ (List.getElem_mem _) path h' ps' below more
      refine ⟨u, ?_, complete⟩
      rw [at?, visited]
      exact reached

theorem cost_eq_iff (v : Visit) : v.cost ctx = v.node.nodeCount ↔ v.Exhausts ctx := by
  obtain ⟨p, c⟩ := v
  induction p generalizing c with
  | rule r =>
    refine ⟨fun _ path h ps found => ?_, fun _ => cost_eq ctx ⟨.rule r, c⟩⟩
    cases path with
    | nil => cases found
    | cons i path => cases found
  | set h ps each =>
    obtain ⟨⟨rest, split⟩, _⟩ := children_inOrder ctx h ps c
    have exhausted : (∀ w ∈ children ctx ⟨.set h ps, c⟩, w.cost ctx = w.node.nodeCount) ↔
        ∀ w ∈ children ctx ⟨.set h ps, c⟩, w.Exhausts ctx :=
      forall₂_congr fun w member => each w.node (mem_children ctx member) w.start
    rw [exhausts_set, ← exhausted, cost_eq, Policy.nodeCount, Policy.nodeCountOf_eq]
    generalize children ctx ⟨.set h ps, c⟩ = visited at split ⊢
    subst split
    have le : ∀ w ∈ visited, w.cost ctx ≤ w.node.nodeCount := fun w _ =>
      w.node.inquiry_walks.visits ctx w.start
    obtain ⟨most, equal⟩ := sum_map_eq_iff le
    rw [← equal, List.map_append, List.sum_append, List.map_map, List.length_append, List.length_map]
    change _ = 1 + ((visited.map fun w => w.node.nodeCount).sum + _) ↔ _
    -- what is not visited has at least one node
    cases rest with
    | nil => simp
    | cons q rest =>
      have one := q.nodeCount_pos
      simp only [List.map_cons, List.sum_cons, List.length_cons]
      omega

end Visit

end AccessControl
