import AccessControl.Instant.Reader
import AccessControl.Json.Record
import AccessControl.Value.Bag

namespace AccessControl

namespace Category

def encode (c : Category) : Json := .string c.name

def decode (inNode : Bool) (j : Json) : Option Category := (j.plainVariant inNode).bind ofName?

end Category

namespace ValueType

def encode (t : ValueType) : Json := .string t.name

def decode (inNode : Bool) (j : Json) : Option ValueType := (j.plainVariant inNode).bind ofName?

end ValueType

namespace Multiplicity

def encode (m : Multiplicity) : Json := .string m.name

def decode (inNode : Bool) (j : Json) : Option Multiplicity := (j.plainVariant inNode).bind ofName?

end Multiplicity

namespace AttributeId

def encode (a : AttributeId) : Json :=
  .object
    [("category", a.category.encode), ("name", .string a.name), ("value_type", a.valueType.encode),
      ("multiplicity", a.multiplicity.encode)]

def decode (inNode : Bool) (j : Json) : Option AttributeId := do
  let [category, name, valueType, multiplicity] ←
    j.record ["category", "name", "value_type", "multiplicity"] | none
  some ⟨← category.bind (Category.decode inNode), ← name.bind Json.string?,
    ← valueType.bind (ValueType.decode inNode), ← multiplicity.bind (Multiplicity.decode inNode)⟩

end AttributeId

namespace Value

def encode : Value → Json
  | boolean b => .object [("boolean", .bool b)]
  | string s => .object [("string", .string s)]
  | integer n => .object [("integer", .integer n.toInt)]
  | double d => .object [("double", if d.isFinite then .double d else .null)]
  | dateTime t => .object [("date_time", .string t.documentText)]

def decode (j : Json) : Option Value :=
  match j.variant with
  | some ("boolean", body) => body.bool?.map boolean
  | some ("string", body) => body.string?.map string
  | some ("integer", body) => body.int64?.map integer
  | some ("double", body) => body.double?.map double
  | some ("date_time", body) => (body.string?.bind Instant.readRelaxed).map dateTime
  | _ => none

end Value

namespace Bag

def encode (b : Bag) : Json :=
  .object [("values", .array (b.values.map Value.encode)), ("ordered", .bool b.ordered)]

def decode (j : Json) : Option Bag := do
  let [values, ordered] ← j.record ["values", "ordered"] | none
  some ⟨← values.bind (Json.list Value.decode), ← Json.orDefault false Json.bool? ordered⟩

end Bag

namespace AttributeValue

def encode : AttributeValue → Json
  | simple v => .object [("simple", v.encode)]
  | bag b => .object [("bag", b.encode)]

def decode (j : Json) : Option AttributeValue :=
  match j.variant with
  | some ("simple", body) => (Value.decode body).map simple
  | some ("bag", body) => (Bag.decode body).map bag
  | _ => none

end AttributeValue

end AccessControl
