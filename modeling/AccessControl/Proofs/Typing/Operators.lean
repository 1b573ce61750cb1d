import AccessControl.Expression.Operators
import AccessControl.Proofs.Validation.WellFormed

namespace AccessControl

/-- A type and a multiplicity. An empty bag has no type of its own. -/
structure StaticType where
  valueType : Option ValueType
  multiplicity : Multiplicity
deriving DecidableEq

def StaticType.boolean : StaticType := ⟨some .boolean, .single⟩

def AttributeId.staticType (a : AttributeId) : StaticType := ⟨some a.valueType, a.multiplicity⟩

namespace AttributeValue

def staticType : AttributeValue → StaticType
  | simple v => ⟨some v.valueType, .single⟩
  | bag b => ⟨b.elementType?, .bag⟩

/-- The value is single or a bag as the type says, and all that it holds is of the type. -/
def HasType (v : AttributeValue) (t : StaticType) : Prop :=
  match v, t.multiplicity with
  | simple v, .single => t.valueType = some v.valueType
  | bag b, .bag => ∀ v ∈ b.values, t.valueType = some v.valueType
  | _, _ => False

theorem HasType.uniform {b : Bag} {t : StaticType} (typed : (bag b).HasType t) : b.Uniform := by
  obtain ⟨type, multiplicity⟩ := t
  cases multiplicity with
  | single => exact typed.elim
  | bag =>
    intro v first w second
    exact Option.some.inj ((typed v first).symm.trans (typed w second))

theorem HasType.simple_iff {v : Value} {t : StaticType} :
    (simple v).HasType t ↔ t = ⟨some v.valueType, .single⟩ := by
  obtain ⟨type, multiplicity⟩ := t
  cases multiplicity <;> simp [HasType]

theorem ofBool_hasType (b : Bool) : (ofBool b).HasType .boolean := HasType.simple_iff.mpr rfl

theorem conformsTo_iff {v : AttributeValue} {a : AttributeId} :
    v.conformsTo a = true ↔ v.HasType a.staticType := by
  obtain ⟨category, name, type, multiplicity⟩ := a
  cases v <;> cases multiplicity <;> simp [conformsTo, HasType, AttributeId.staticType, @eq_comm _ type]

theorem staticType_hasType {v : AttributeValue} (uniform : ∀ b, v = bag b → b.Uniform) :
    v.HasType v.staticType := by
  cases v with
  | simple v => exact HasType.simple_iff.mpr rfl
  | bag b =>
    obtain ⟨values, ordered⟩ := b
    intro w member
    cases values with
    | nil => cases member
    | cons v vs => exact congrArg some (uniform _ rfl v List.mem_cons_self w member)

end AttributeValue

namespace Bag

/-- Both bags have values, and no value of the one is of the type of a value of the other. -/
def Clash (a b : Bag) : Prop :=
  a.values ≠ [] ∧ b.values ≠ [] ∧ ∀ v ∈ a.values, ∀ w ∈ b.values, v.valueType ≠ w.valueType

theorem Clash.of_first {a b : Bag} (left : a.Uniform) (right : b.Uniform) {v w : Value}
    (first : v ∈ a.values) (second : w ∈ b.values) (different : v.valueType ≠ w.valueType) : a.Clash b := by
  refine ⟨List.ne_nil_of_mem first, List.ne_nil_of_mem second, fun x inLeft y inRight same => different ?_⟩
  rw [left v first x inLeft, same, right y inRight w second]

theorem typeClash?_eq_none {a b : Bag} (left : a.Uniform) (right : b.Uniform) :
    a.typeClash? b = none ↔ ¬a.Clash b := by
  obtain ⟨_ | ⟨v, vs⟩, m⟩ := a
  · simp [typeClash?, elementType?, Clash]
  · obtain ⟨_ | ⟨w, ws⟩, n⟩ := b
    · simp [typeClash?, elementType?, Clash]
    · by_cases same : v.valueType = w.valueType
      · have agrees : ¬Clash ⟨v :: vs, m⟩ ⟨w :: ws, n⟩ := fun clash =>
          clash.2.2 v List.mem_cons_self w List.mem_cons_self same
        simp [typeClash?, elementType?, same, agrees]
      · have clash := Clash.of_first left right List.mem_cons_self List.mem_cons_self same
        simp [typeClash?, elementType?, same, clash]

/-- The result is a type mismatch where the bags clash, and a truth where they do not. -/
structure Judges (a b : Bag) (r : Except Reason AttributeValue) : Prop where
  refuses : (∃ detail, r = .error (.typeMismatch detail)) ↔ a.Clash b
  answers : (∃ t, r = .ok (.ofBool t)) ↔ ¬a.Clash b

theorem Judges.of_typeClash {a b : Bag} {r : Except Reason AttributeValue}
    (left : a.Uniform) (right : b.Uniform)
    (clashing : ∀ types, a.typeClash? b = some types → ∃ detail, r = .error (.typeMismatch detail))
    (agreeing : a.typeClash? b = none → ∃ t, r = .ok (.ofBool t)) : Judges a b r := by
  have agrees := typeClash?_eq_none left right
  cases types : a.typeClash? b with
  | none =>
    obtain ⟨t, rfl⟩ := agreeing types
    have apart := agrees.mp types
    exact ⟨by simp [apart], by simp [apart]⟩
  | some types' =>
    obtain ⟨detail, rfl⟩ := clashing types' types
    have clash : a.Clash b := Classical.not_not.mp fun apart => by simp [agrees.mpr apart] at types
    exact ⟨by simp [clash], by simp [clash]⟩

end Bag

open AttributeValue (HasType)
open Bag (Judges)

def CompareOp.takesBags (op : CompareOp) : Bool := [eq, ne, isIn].contains op

theorem CompareOp.apply_judges {op : CompareOp} (takes : op.takesBags) {a b : Bag} (left : a.Uniform)
    (right : b.Uniform) : Judges a b ((op.apply (.bag a) (.bag b)).map .ofBool) := by
  apply Judges.of_typeClash left right
  · intro types clash
    cases op <;> simp [takesBags] at takes <;>
      simp [apply, AttributeValue.equal, AttributeValue.contained, clash, Except.map]
  · intro agree
    cases op <;> simp [takesBags] at takes <;>
      simp [apply, AttributeValue.equal, AttributeValue.contained, agree, Except.map]

theorem Function.intersects_judges {a b : Bag} (left : a.Uniform) (right : b.Uniform) :
    Judges a b (intersects.apply [.bag a, .bag b]) := by
  apply Judges.of_typeClash left right
  · intro types clash
    simp [apply, clash]
  · intro agree
    simp [apply, agree]

theorem Arithmetic.apply_hasType {o : Operation} {a b : Value} {w : AttributeValue} {t : StaticType}
    (ok : o.apply a b = .ok w) (typed : (AttributeValue.simple a).HasType t) : w.HasType t := by
  rw [HasType.simple_iff] at typed
  subst typed
  unfold Operation.apply at ok
  split at ok
  · rename_i x y
    cases result : o.integer x y with
    | none =>
      simp only [result, Option.map_none] at ok
      cases ok
    | some n =>
      simp only [result, Option.map_some] at ok
      cases ok
      exact HasType.simple_iff.mpr rfl
  · rename_i x y
    cases result : o.double x y with
    | none =>
      simp only [result, Option.map_none] at ok
      cases ok
    | some d =>
      simp only [result, Option.map_some] at ok
      cases ok
      exact HasType.simple_iff.mpr rfl
  · cases ok

namespace Function

def resultType : Function → StaticType → StaticType
  | add, first => first
  | subtract, first => first
  | multiply, first => first
  | divide, first => first
  | size, _ => ⟨some .integer, .single⟩
  | _, _ => .boolean

theorem apply_hasType {f : Function} {vs : List AttributeValue} {w : AttributeValue} {t : StaticType}
    (ok : f.apply vs = .ok w) (first : ∀ v ∈ vs.head?, v.HasType t) : w.HasType (f.resultType t) := by
  have bool {b : Bool} (same : (.ok (.ofBool b) : Except Reason AttributeValue) = .ok w) :
      w.HasType .boolean := by
    cases same
    exact AttributeValue.ofBool_hasType b
  unfold apply at ok
  split at ok
  · exact Arithmetic.apply_hasType ok (first _ rfl)
  · exact Arithmetic.apply_hasType ok (first _ rfl)
  · exact Arithmetic.apply_hasType ok (first _ rfl)
  · exact Arithmetic.apply_hasType ok (first _ rfl)
  · exact bool ok
  · exact bool ok
  · exact bool ok
  · cases ok
    exact HasType.simple_iff.mpr rfl
  · split at ok
    · cases ok
    · exact bool ok
  · cases ok

end Function

end AccessControl
