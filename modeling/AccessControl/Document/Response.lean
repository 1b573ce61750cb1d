import AccessControl.Decision
import AccessControl.Document.Policy

namespace AccessControl

namespace Extent

def encode (x : Extent) : Json := .string x.name

def decode (j : Json) : Option Extent := (j.plainVariant false).bind ofName?

end Extent

namespace Reason

def encode : Reason → Json
  | missingAttribute a => .object [("missing_attribute", .object [("attribute", .string a)])]
  | resolverFailure a m =>
    .object [("resolver_failure", .object [("attribute", .string a), ("message", .string m)])]
  | typeMismatch d => .object [("type_mismatch", .string d)]
  | bagTruthiness d => .object [("bag_truthiness", .string d)]
  | arithmetic d => .object [("arithmetic", .string d)]
  | multipleApplicable p => .object [("multiple_applicable", .object [("policy", .string p)])]
  | obligationFailed o cause =>
    .object [("obligation_failed", .object [("obligation", .string o), ("cause", cause.encode)])]

def decodeWithin : Nat → Json → Option Reason
  | 0, _ => none
  | n + 1, j =>
    match j.variant with
    | some ("missing_attribute", body) => do
      let [name] ← body.record ["attribute"] | none
      some (missingAttribute (← name.bind Json.string?))
    | some ("resolver_failure", body) => do
      let [name, message] ← body.record ["attribute", "message"] | none
      some (resolverFailure (← name.bind Json.string?) (← message.bind Json.string?))
    | some ("type_mismatch", body) => body.string?.map typeMismatch
    | some ("bag_truthiness", body) => body.string?.map bagTruthiness
    | some ("arithmetic", body) => body.string?.map arithmetic
    | some ("multiple_applicable", body) => do
      let [policy] ← body.record ["policy"] | none
      some (multipleApplicable (← policy.bind Json.string?))
    | some ("obligation_failed", body) => do
      let [obligation, cause] ← body.record ["obligation", "cause"] | none
      some (obligationFailed (← obligation.bind Json.string?) (← cause.bind (decodeWithin n)))
    | _ => none

def decode (j : Json) : Option Reason := decodeWithin (j.depth + 1) j

end Reason

namespace Decision

def encode : Decision → Json
  | permit => .string "permit"
  | deny => .string "deny"
  | notApplicable => .string "not_applicable"
  | indeterminate x r =>
    .object [("indeterminate", .object [("extent", x.encode), ("reason", r.encode)])]

def decode (j : Json) : Option Decision :=
  match j.plainVariant false with
  | some "permit" => some permit
  | some "deny" => some deny
  | some "not_applicable" => some notApplicable
  | _ => do
    let ("indeterminate", body) ← j.variant | none
    let [extent, reason] ← body.record ["extent", "reason"] | none
    some (indeterminate (← extent.bind Extent.decode) (← reason.bind Reason.decode))

end Decision

namespace Assignment

def encode (a : Assignment) : Json := .object [("name", .string a.name), ("value", a.value.encode)]

def decode (j : Json) : Option Assignment := do
  let [name, value] ← j.record ["name", "value"] | none
  some ⟨← name.bind Json.string?, ← value.bind AttributeValue.decode⟩

end Assignment

namespace FulfilledObligation

def encode (o : FulfilledObligation) : Json :=
  .object [("id", .string o.id), ("assignments", .array (o.assignments.map Assignment.encode))]

def decode (j : Json) : Option FulfilledObligation := do
  let [id, assignments] ← j.record ["id", "assignments"] | none
  some ⟨← id.bind Json.string?, ← assignments.bind (Json.list Assignment.decode)⟩

end FulfilledObligation

namespace Response

def encode (r : Response) : Json :=
  .object
    [("decision", r.decision.encode), ("obligations", .array (r.obligations.map FulfilledObligation.encode))]

def decode (j : Json) : Option Response := do
  let [decision, obligations] ← j.record ["decision", "obligations"] | none
  some ⟨← decision.bind Decision.decode, ← obligations.bind (Json.list FulfilledObligation.decode)⟩

end Response

end AccessControl
