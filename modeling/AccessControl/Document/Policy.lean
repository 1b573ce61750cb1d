import AccessControl.Document.Value
import AccessControl.Json.Printer
import AccessControl.Json.Reader
import AccessControl.Policy.Validate

namespace AccessControl

namespace CompareOp

def encode (op : CompareOp) : Json := .string op.name

def decode (inNode : Bool) (j : Json) : Option CompareOp := (j.plainVariant inNode).bind ofName?

end CompareOp

namespace Function

def encode (f : Function) : Json := .string f.name

def decode (inNode : Bool) (j : Json) : Option Function := (j.plainVariant inNode).bind ofName?

end Function

namespace Effect

def encode (e : Effect) : Json := .string e.name

def decode (inNode : Bool) (j : Json) : Option Effect := (j.plainVariant inNode).bind ofName?

end Effect

namespace Algorithm

def encode (a : Algorithm) : Json := .string a.name

def decode (inNode : Bool) (j : Json) : Option Algorithm := (j.plainVariant inNode).bind ofName?

end Algorithm

namespace Expression

mutual

def encode : Expression → Json
  | literal v => .object [("literal", v.encode)]
  | ref a => .object [("attribute", a.encode)]
  | compare op l r =>
    .object [("compare", .object [("op", op.encode), ("left", l.encode), ("right", r.encode)])]
  | and es => .object [("and", .array (encodeAll es))]
  | or es => .object [("or", .array (encodeAll es))]
  | not e => .object [("not", e.encode)]
  | call f es => .object [("call", .object [("function", f.encode), ("args", .array (encodeAll es))])]

def encodeAll : List Expression → List Json
  | [] => []
  | e :: es => e.encode :: encodeAll es

end

/-- Decodes an expression whose form is nested less deep than the first argument. -/
def decodeWithin (inNode : Bool) : Nat → Json → Option Expression
  | 0, _ => none
  | n + 1, j =>
    match j.variant with
    | some ("literal", body) => (AttributeValue.decode body).map literal
    | some ("attribute", body) => (AttributeId.decode inNode body).map ref
    | some ("compare", body) => do
      let [op, left, right] ← body.record ["op", "left", "right"] | none
      some (compare (← op.bind (CompareOp.decode inNode)) (← left.bind (decodeWithin inNode n))
        (← right.bind (decodeWithin inNode n)))
    | some ("and", body) => (body.list (decodeWithin inNode n)).map and
    | some ("or", body) => (body.list (decodeWithin inNode n)).map or
    | some ("not", body) => (decodeWithin inNode n body).map not
    | some ("call", body) => do
      let [function, args] ← body.record ["function", "args"] | none
      some (call (← function.bind (Function.decode inNode))
        (← args.bind (Json.list (decodeWithin inNode n))))
    | _ => none

def decode (inNode : Bool) (j : Json) : Option Expression := decodeWithin inNode (j.depth + 1) j

end Expression

namespace AssignmentRule

def encode (a : AssignmentRule) : Json := .object [("name", .string a.name), ("value", a.value.encode)]

def decode (inNode : Bool) (j : Json) : Option AssignmentRule := do
  let [name, value] ← j.record ["name", "value"] | none
  some ⟨← name.bind Json.string?, ← value.bind (Expression.decode inNode)⟩

end AssignmentRule

namespace Obligation

def encode (o : Obligation) : Json :=
  .object
    [("id", .string o.id), ("fulfill_on", o.fulfillOn.encode),
      ("assignments", .array (o.assignments.map AssignmentRule.encode))]

def decode (inNode : Bool) (j : Json) : Option Obligation := do
  let [id, fulfillOn, assignments] ← j.record ["id", "fulfill_on", "assignments"] | none
  some ⟨← id.bind Json.string?, ← fulfillOn.bind (Effect.decode inNode),
    ← Json.orDefault [] (Json.list (AssignmentRule.decode inNode)) assignments⟩

end Obligation

namespace Policy

mutual

def encode : Policy → Json
  | rule r =>
    .object
      [("kind", .string "rule"), ("id", .string r.id), ("target", Json.ofOption Expression.encode r.target),
        ("condition", Json.ofOption Expression.encode r.condition), ("effect", r.effect.encode),
        ("obligations", .array (r.obligations.map Obligation.encode))]
  | set h cs =>
    .object
      [("kind", .string "set"), ("id", .string h.id), ("target", Json.ofOption Expression.encode h.target),
        ("algorithm", h.algorithm.encode), ("children", .array (encodeAll cs)),
        ("obligations", .array (h.obligations.map Obligation.encode))]

def encodeAll : List Policy → List Json
  | [] => []
  | c :: cs => c.encode :: encodeAll cs

end

inductive Kind where
  | rule
  | set

def decodeKind (inNode : Bool) : Json → Option Kind
  | .string "rule" => some .rule
  | .string "set" => some .set
  | .integer 0 => if inNode then some .rule else none
  | .integer 1 => if inNode then some .set else none
  | _ => none

def kindField (j : Json) : Option Json :=
  match j with
  | .array (k :: _) => some k
  | _ => j.field? "kind"

def decodeRule (j : Json) : Option Rule := do
  let [_, id, target, condition, effect, obligations] ←
    j.record ["kind", "id", "target", "condition", "effect", "obligations"] | none
  some
    { id := ← id.bind Json.string?
      target := ← Json.optional (Expression.decode true) target
      condition := ← Json.optional (Expression.decode true) condition
      effect := ← effect.bind (Effect.decode true)
      obligations := ← Json.orDefault [] (Json.list (Obligation.decode true)) obligations }

def decodeWithin (inNode : Bool) : Nat → Json → Option Policy
  | 0, _ => none
  | n + 1, j => do
    match ← (kindField j).bind (decodeKind inNode) with
    | .rule => (decodeRule j).map rule
    | .set =>
      let [_, id, target, algorithm, children, obligations] ←
        j.record ["kind", "id", "target", "algorithm", "children", "obligations"] | none
      let header : SetHeader :=
        { id := ← id.bind Json.string?
          target := ← Json.optional (Expression.decode true) target
          algorithm := ← algorithm.bind (Algorithm.decode true)
          obligations := ← Json.orDefault [] (Json.list (Obligation.decode true)) obligations }
      some (set header (← Json.orDefault [] (Json.list (decodeWithin true n)) children))

def decode (j : Json) : Option Policy :=
  if j.readable then decodeWithin false (j.depth + 1) j else none

end Policy

structure PolicyDocument where
  attributes : List AttributeId
  policy : Policy

namespace PolicyDocument

def encode (d : PolicyDocument) : Json :=
  .object [("attributes", .array (d.attributes.map AttributeId.encode)), ("policy", d.policy.encode)]

def decode (j : Json) : Option PolicyDocument := do
  let [attributes, policy] ← j.record ["attributes", "policy"] | none
  some ⟨← Json.orDefault [] (Json.list (AttributeId.decode false)) attributes, ← policy.bind Policy.decode⟩

def read (text : String) : Option PolicyDocument := (Json.read text).bind decode

def text (d : PolicyDocument) : String := d.encode.pretty

def catalog (d : PolicyDocument) : Except PolicyError Catalog := Catalog.ofList d.attributes

end PolicyDocument

end AccessControl
