import AccessControl.Proofs.References.Declared
import AccessControl.Proofs.Requests.Build

namespace AccessControl

/-- The attribute has the name of a built-in one, whatever its type and multiplicity. -/
def AttributeId.Reserved (a : AttributeId) : Prop := a.name = (builtin a.category).name

instance (a : AttributeId) : Decidable a.Reserved :=
  inferInstanceAs (Decidable (a.name = (AttributeId.builtin a.category).name))

theorem AttributeId.isBuiltin_of_unreserved {a : AttributeId} (free : ¬a.Reserved) : a.isBuiltin = false := by
  rw [Bool.eq_false_iff]
  intro builtin
  exact free (congrArg AttributeId.name (isBuiltin_iff.mp builtin))

namespace Catalog

/-- The catalogs that declarations lead to. One that fails leaves the catalog as it is. -/
inductive Built : Catalog → Prop where
  | initial : Built .initial
  | insert {c d : Catalog} {a : AttributeId} : Built c → c.insert a = .ok d → Built d

theorem find?_place {f : AttributeId → Bool} {a : AttributeId} (other : f a = false) (as : List AttributeId) :
    (place a as).find? f = as.find? f := by
  induction as with
  | nil => rw [place, List.find?_cons_of_neg (by simp [other])]
  | cons b bs ih =>
    rw [place]
    split
    · rw [List.find?_cons_of_neg (by simp [other])]
    · rw [List.find?_cons, List.find?_cons, ih]

theorem declare_eq (a : AttributeId) (c : Catalog) :
    c.declare a = match c.insert a with
      | .error e => (.error e, c)
      | .ok d => (.ok (), d) := by
  unfold insert declare
  cases c.get? a.category a.name with
  | none => rfl
  | some b => by_cases same : b = a <;> simp [same]

theorem insert_keeps {c d : Catalog} {a b : AttributeId} {category : Category} {name : String}
    (inserted : c.insert a = .ok d) (declared : c.get? category name = some b) :
    d.get? category name = some b := by
  unfold insert declare at inserted
  cases fresh : c.get? a.category a.name with
  | none =>
    rw [fresh] at inserted
    cases inserted
    have other : (a.category == category && a.name == name) = false := by
      rw [Bool.eq_false_iff]
      intro same
      rw [Bool.and_eq_true, beq_iff_eq, beq_iff_eq] at same
      rw [same.1, same.2, declared] at fresh
      cases fresh
    exact (find?_place other c.declared).trans declared
  | some existing =>
    rw [fresh] at inserted
    by_cases same : existing = a
    · simp only [same, if_true] at inserted
      cases inserted
      exact declared
    · simp only [if_neg same] at inserted
      cases inserted

theorem Built.declares_builtin {c : Catalog} (built : c.Built) (k : Category) :
    c.get? k (AttributeId.builtin k).name = some (.builtin k) := by
  induction built with
  | initial => cases k <;> rfl
  | insert _ inserted ih =>
    -- a declaration that differs from the built-in one of its name conflicts with it and is refused
    exact insert_keeps inserted ih

theorem Built.eq_builtin {c : Catalog} (built : c.Built) {a : AttributeId} (declared : c.contains a = true)
    (reserved : a.Reserved) : a = .builtin a.category := by
  have found := contains_iff.mp declared
  rw [reserved, built.declares_builtin] at found
  exact (Option.some.inj found).symm

end Catalog

end AccessControl
