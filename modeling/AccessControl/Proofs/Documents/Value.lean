import AccessControl.Document.Value
import AccessControl.Proofs.Instant.Text
import AccessControl.Proofs.Json.Reading
import AccessControl.Proofs.Json.Record

namespace AccessControl

open Json (Legible)

variable {number : Double → Prop}

theorem Category.decode_encode (inNode : Bool) (c : Category) : decode inNode c.encode = some c := by
  cases c <;> rfl

theorem ValueType.decode_encode (inNode : Bool) (t : ValueType) : decode inNode t.encode = some t := by
  cases t <;> rfl

theorem Multiplicity.decode_encode (inNode : Bool) (m : Multiplicity) :
    decode inNode m.encode = some m := by
  cases m <;> rfl

namespace AttributeId

theorem decode_encode (inNode : Bool) (a : AttributeId) : decode inNode a.encode = some a := by
  have fields : a.encode.record ["category", "name", "value_type", "multiplicity"] =
      some [some a.category.encode, some (.string a.name), some a.valueType.encode,
        some a.multiplicity.encode] :=
    Json.record_object rfl rfl rfl (by simp)
  simp [decode, fields, Json.string?, Category.decode_encode, ValueType.decode_encode,
    Multiplicity.decode_encode]

theorem encode_legible (a : AttributeId) : a.encode.Legible number := by
  exact .object (by simp [Category.encode, ValueType.encode, Multiplicity.encode, Legible.string])

end AttributeId

namespace Value

def doubles : Value → List Double
  | double d => [d]
  | _ => []

theorem int64?_toInt (n : Int64) : Json.int64? (.integer n.toInt) = some n := by
  rw [Json.int64?, if_pos ⟨n.minValue_le_toInt, n.toInt_le⟩, Int64.ofInt_toInt]

theorem decode_encode (v : Value) (finite : ∀ d ∈ v.doubles, d.isFinite) : decode v.encode = some v := by
  cases v with
  | boolean b => rfl
  | string s => rfl
  | integer n => simp [decode, encode, Json.variant, int64?_toInt]
  | double d =>
    have number : d.isFinite := finite d List.mem_cons_self
    simp [decode, encode, Json.variant, number, Json.double?]
  | dateTime t => simp [decode, encode, Json.variant, Json.string?, t.readRelaxed_documentText]

theorem encode_legible (v : Value) (legible : ∀ d ∈ v.doubles, number d) : v.encode.Legible number := by
  cases v with
  | boolean b => exact .variant (.bool b) _
  | string s => exact .variant (.string s) _
  | integer n => exact .variant (.integer n) _
  | double d =>
    refine .variant ?_ _
    split
    · exact .double (legible d List.mem_cons_self)
    · exact .null
  | dateTime t => exact .variant (.string _) _

end Value

namespace Bag

def doubles (b : Bag) : List Double := b.values.flatMap Value.doubles

theorem decode_encode (b : Bag) (finite : ∀ d ∈ b.doubles, d.isFinite) : decode b.encode = some b := by
  have fields : b.encode.record ["values", "ordered"] =
      some [some (.array (b.values.map Value.encode)), some (.bool b.ordered)] :=
    Json.record_object rfl rfl rfl (by simp)
  have values : Json.list Value.decode (.array (b.values.map Value.encode)) = some b.values :=
    Json.list_of_doubles finite fun v _ => v.decode_encode
  simp [decode, fields, values, Json.orDefault, Json.bool?]

theorem encode_legible (b : Bag) (legible : ∀ d ∈ b.doubles, number d) : b.encode.Legible number := by
  have values : (Json.array (b.values.map Value.encode)).Legible number :=
    .list_of_doubles legible fun v _ => v.encode_legible
  exact .object (by simp [values, Legible.bool])

end Bag

namespace AttributeValue

def doubles : AttributeValue → List Double
  | simple v => v.doubles
  | bag b => b.doubles

theorem decode_encode (v : AttributeValue) (finite : ∀ d ∈ v.doubles, d.isFinite) :
    decode v.encode = some v := by
  cases v with
  | simple v => simp [decode, encode, Json.variant, v.decode_encode finite]
  | bag b => simp [decode, encode, Json.variant, b.decode_encode finite]

theorem encode_legible (v : AttributeValue) (legible : ∀ d ∈ v.doubles, number d) :
    v.encode.Legible number := by
  cases v with
  | simple v => exact (v.encode_legible legible).variant _
  | bag b => exact (b.encode_legible legible).variant _

end AttributeValue

end AccessControl
