import AccessControl.Catalog
import AccessControl.Document.Value
import AccessControl.Json.Printer
import AccessControl.Json.Reader
import AccessControl.Request

namespace AccessControl

structure RequestAttribute where
  category : Category
  name : String
  value : Json

structure RequestDocument where
  subject : String
  action : String
  resource : String
  timestamp : Option Instant
  attributes : List RequestAttribute

inductive RequestError where
  | unknownAttribute (category : Category) (name : String)
  | reservedAttribute (a : AttributeId)
  | invalidValue (a : AttributeId) (expected found : String)
deriving DecidableEq

def RequestError.message : RequestError → String
  | unknownAttribute category name => "unknown attribute '" ++ category.name ++ "." ++ name ++ "'"
  | reservedAttribute a => "'" ++ a.text ++ "' is set by the request itself and cannot be bound"
  | invalidValue a expected found => "'" ++ a.text ++ "' expects " ++ expected ++ ", found " ++ found

namespace RequestAttribute

def encode (a : RequestAttribute) : Json :=
  .object [("category", a.category.encode), ("name", .string a.name), ("value", a.value)]

def decode (j : Json) : Option RequestAttribute := do
  let [category, name, value] ← j.record ["category", "name", "value"] | none
  let value ← value
  if value.readable then
    some ⟨← category.bind (Category.decode false), ← name.bind Json.string?, value.canonical⟩
  else none

end RequestAttribute

namespace RequestDocument

def encode (d : RequestDocument) : Json :=
  .object
    [("subject", .string d.subject), ("action", .string d.action), ("resource", .string d.resource),
      ("timestamp", Json.ofOption (fun t : Instant => .string t.documentText) d.timestamp),
      ("attributes", .array (d.attributes.map RequestAttribute.encode))]

def decode (j : Json) : Option RequestDocument := do
  let [subject, action, resource, timestamp, attributes] ←
    j.record ["subject", "action", "resource", "timestamp", "attributes"] | none
  some
    { subject := ← subject.bind Json.string?
      action := ← action.bind Json.string?
      resource := ← resource.bind Json.string?
      timestamp := ← Json.optional (fun t => t.string?.bind Instant.readRelaxed) timestamp
      attributes := ← Json.orDefault [] (Json.list RequestAttribute.decode) attributes }

def read (text : String) : Option RequestDocument := (Json.read text).bind decode

end RequestDocument

namespace AttributeId

def scalar? (t : ValueType) (j : Json) : Option Value :=
  match t, j with
  | .boolean, .bool b => some (.boolean b)
  | .string, .string s => some (.string s)
  | .integer, j => j.int64?.map .integer
  | .double, j => j.double?.map .double
  | .dateTime, .string s => (Instant.readStrict s).map .dateTime
  | _, _ => none

def scalar (a : AttributeId) (j : Json) : Except RequestError Value :=
  match scalar? a.valueType j with
  | some v => .ok v
  | none => .error (.invalidValue a a.valueType.text j.compact)

def scalars (a : AttributeId) : List Json → Except RequestError (List Value)
  | [] => .ok []
  | j :: js => do
    let v ← a.scalar j
    let vs ← scalars a js
    .ok (v :: vs)

/-- A bag takes an array, or one scalar for a bag of one. -/
def typed (a : AttributeId) (j : Json) : Except RequestError AttributeValue :=
  match a.multiplicity, j with
  | .bag, .array items => (a.scalars items).map fun vs => .bag (.ofList vs)
  | .bag, j => (a.scalar j).map fun v => .bag (.ofList [v])
  | .single, .array _ => .error (.invalidValue a ("a single " ++ a.valueType.text) "an array")
  | .single, j => (a.scalar j).map .simple

end AttributeId

def RequestAttribute.toBinding (catalog : Catalog) (e : RequestAttribute) :
    Except RequestError (AttributeId × AttributeValue) :=
  match catalog.get? e.category e.name with
  | none => .error (.unknownAttribute e.category e.name)
  | some a => if a.isBuiltin then .error (.reservedAttribute a) else (a.typed e.value).map fun v => (a, v)

namespace RequestDocument

def bindings (catalog : Catalog) :
    List RequestAttribute → Except RequestError (List (AttributeId × AttributeValue))
  | [] => .ok []
  | e :: es => do
    let b ← e.toBinding catalog
    let bs ← bindings catalog es
    .ok (b :: bs)

/-- The request, stamped with `now` unless the document gives a time. -/
def toRequest (d : RequestDocument) (catalog : Catalog) (now : Instant) : Except RequestError Request := do
  let bs ← bindings catalog d.attributes
  let r := (Request.new d.subject d.action d.resource now).bindAll bs
  match d.timestamp with
  | some t => .ok (r.withTimestamp t)
  | none => .ok r

end RequestDocument

end AccessControl
