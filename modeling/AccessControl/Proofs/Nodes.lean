import AccessControl.Policy.Basic

namespace AccessControl.Policy

def condition : Policy → Option Expression
  | rule r => r.condition
  | set _ _ => none

def obligations : Policy → List Obligation
  | rule r => r.obligations
  | set h _ => h.obligations

theorem mem_nodes (p : Policy) : p ∈ p.nodes := by
  cases p <;> exact List.mem_cons_self

theorem mem_nodesOf {q : Policy} {ps : List Policy} : q ∈ nodesOf ps ↔ ∃ p ∈ ps, q ∈ p.nodes := by
  induction ps with
  | nil => simp [nodesOf]
  | cons p ps ih => simp [nodesOf, ih]

theorem nodes_subset_nodesOf {p : Policy} {ps : List Policy} (member : p ∈ ps) : p.nodes ⊆ nodesOf ps :=
  fun _ node => mem_nodesOf.mpr ⟨p, member, node⟩

theorem child_nodes_subset {h : SetHeader} {p : Policy} {ps : List Policy} (member : p ∈ ps) :
    p.nodes ⊆ (set h ps).nodes :=
  List.subset_cons_of_subset _ (nodes_subset_nodesOf member)

end AccessControl.Policy
