import Mathlib.Data.List.Nodup
import Mathlib.Data.String.Basic
import AccessControl.Catalog

namespace AccessControl

theorem Category.rank_inj {k l : Category} (same : k.rank = l.rank) : k = l := by
  cases k <;> cases l <;> simp_all [rank]

namespace AttributeId

variable {a b c : AttributeId}

/-- Declarations that exclude each other. -/
structure Conflicts (a b : AttributeId) : Prop where
  category : a.category = b.category
  name : a.name = b.name
  differ : a.valueType ≠ b.valueType ∨ a.multiplicity ≠ b.multiplicity

instance (a b : AttributeId) : Decidable (a.Conflicts b) :=
  decidable_of_iff
    (a.category = b.category ∧ a.name = b.name ∧
      (a.valueType ≠ b.valueType ∨ a.multiplicity ≠ b.multiplicity))
    ⟨fun ⟨category, name, differ⟩ => ⟨category, name, differ⟩,
      fun ⟨category, name, differ⟩ => ⟨category, name, differ⟩⟩

theorem Conflicts.symm (conflict : a.Conflicts b) : b.Conflicts a :=
  ⟨conflict.category.symm, conflict.name.symm, conflict.differ.imp Ne.symm Ne.symm⟩

theorem Conflicts.ne (conflict : a.Conflicts b) : a ≠ b := by
  rintro rfl
  exact conflict.differ.elim (· rfl) (· rfl)

theorem eq_or_conflicts (category : a.category = b.category) (name : a.name = b.name) :
    a = b ∨ a.Conflicts b := by
  by_cases same : a.valueType = b.valueType ∧ a.multiplicity = b.multiplicity
  · left
    obtain ⟨_, _, _, _⟩ := a
    obtain ⟨_, _, _, _⟩ := b
    simp_all
  · exact .inr ⟨category, name, not_and_or.mp same⟩

theorem before_iff : a.before b = true ↔
    a.category.rank < b.category.rank ∨ (a.category = b.category ∧ a.name < b.name) := by
  simp [before]

theorem before_trans (first : a.before b = true) (second : b.before c = true) : a.before c = true := by
  rw [before_iff] at *
  rcases first with first | ⟨first, firstName⟩ <;> rcases second with second | ⟨second, secondName⟩
  · exact .inl (Nat.lt_trans first second)
  · exact .inl (second ▸ first)
  · exact .inl (first ▸ second)
  · exact .inr ⟨first.trans second, lt_trans firstName secondName⟩

theorem before_irrefl (category : a.category = b.category) (name : a.name = b.name) :
    a.before b = false := by
  rw [Bool.eq_false_iff, ne_eq, before_iff, category, name]
  simp

theorem before_asymm (first : a.before b = true) : b.before a = false := by
  rw [Bool.eq_false_iff]
  intro second
  have loop := before_trans first second
  rw [before_irrefl rfl rfl] at loop
  cases loop

theorem before_of_not (after : a.before b = false) (other : ¬(a.category = b.category ∧ a.name = b.name)) :
    b.before a = true := by
  rw [Bool.eq_false_iff, ne_eq, before_iff, not_or, not_and] at after
  rw [before_iff]
  obtain ⟨rank, name⟩ := after
  by_cases category : a.category = b.category
  · have different : b.name ≠ a.name := fun same => other ⟨category, same.symm⟩
    exact .inr ⟨category.symm, lt_of_le_of_ne (not_lt.mp (name category)) different⟩
  · have different : b.category.rank ≠ a.category.rank := fun same => category (Category.rank_inj same.symm)
    exact .inl (Nat.lt_of_le_of_ne (Nat.le_of_not_lt rank) different)

end AttributeId

namespace Catalog

def Ordered (c : Catalog) : Prop := c.declared.Pairwise fun a b => a.before b = true

theorem mem_place {a b : AttributeId} {as : List AttributeId} : b ∈ place a as ↔ b = a ∨ b ∈ as := by
  induction as with
  | nil => simp [place]
  | cons d ds ih =>
    rw [place]
    split
    · simp
    · rw [List.mem_cons, ih, List.mem_cons, or_left_comm]

theorem pairwise_place {a : AttributeId} {as : List AttributeId}
    (ordered : as.Pairwise fun a b => a.before b = true)
    (fresh : ∀ b ∈ as, ¬(a.category = b.category ∧ a.name = b.name)) :
    (place a as).Pairwise fun a b => a.before b = true := by
  induction as with
  | nil => simp [place]
  | cons b bs ih =>
    obtain ⟨head, tail⟩ := List.pairwise_cons.mp ordered
    obtain ⟨other, others⟩ := List.forall_mem_cons.mp fresh
    rw [place]
    split
    · rename_i first
      refine List.pairwise_cons.mpr ⟨List.forall_mem_cons.mpr ⟨first, fun d member => ?_⟩, ordered⟩
      exact AttributeId.before_trans first (head d member)
    · rename_i later
      refine List.pairwise_cons.mpr ⟨fun d member => ?_, ih tail others⟩
      rcases mem_place.mp member with rfl | member
      · exact AttributeId.before_of_not (Bool.eq_false_iff.mpr later) other
      · exact head d member

variable {c d : Catalog}

theorem Ordered.nodup_names (ordered : c.Ordered) : (c.declared.map fun a => (a.category, a.name)).Nodup := by
  refine List.pairwise_map.mpr (ordered.imp fun {a b} first same => ?_)
  rw [AttributeId.before_irrefl (Prod.mk.inj same).1 (Prod.mk.inj same).2] at first
  cases first

theorem Ordered.unique (ordered : c.Ordered) {a b : AttributeId} (first : a ∈ c.declared)
    (second : b ∈ c.declared) (category : a.category = b.category) (name : a.name = b.name) : a = b :=
  List.inj_on_of_nodup_map ordered.nodup_names first second (congrArg₂ Prod.mk category name)

theorem Ordered.contains_iff_mem (ordered : c.Ordered) {a : AttributeId} :
    c.contains a = true ↔ a ∈ c.declared := by
  rw [contains, beq_iff_eq, get?]
  constructor
  · exact List.mem_of_find?_eq_some
  · intro member
    cases found : c.declared.find? fun b => b.category == a.category && b.name == a.name with
    | none => exact absurd (List.find?_eq_none.mp found a member) (by simp)
    | some b =>
      have named := List.find?_some found
      rw [Bool.and_eq_true, beq_iff_eq, beq_iff_eq] at named
      rw [ordered.unique (List.mem_of_find?_eq_some found) member named.1 named.2]

theorem Ordered.ext (ordered : c.Ordered) (ordered' : d.Ordered)
    (same : ∀ a, a ∈ c.declared ↔ a ∈ d.declared) : c = d := by
  have perm : c.declared.Perm d.declared :=
    (List.perm_ext_iff_of_nodup (.of_map _ ordered.nodup_names) (.of_map _ ordered'.nodup_names)).mpr same
  have equal : c.declared = d.declared := by
    refine perm.eq_of_pairwise (fun a b _ _ first second => ?_) ordered ordered'
    rw [AttributeId.before_asymm first] at second
    cases second
  obtain ⟨as⟩ := c
  exact congrArg Catalog.mk equal

end Catalog

end AccessControl
