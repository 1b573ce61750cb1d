import AccessControl.Document.Response
import AccessControl.Proofs.Documents.Policy

namespace AccessControl

open Json (Legible)

variable {number : Double → Prop}

theorem Extent.decode_encode (x : Extent) : decode x.encode = some x := by cases x <;> rfl

namespace Reason

theorem decodeWithin_encode (r : Reason) {n : Nat} (enough : r.encode.depth < n) :
    decodeWithin n r.encode = some r := by
  obtain ⟨n, rfl⟩ := Nat.exists_eq_add_one_of_ne_zero (Nat.ne_zero_of_lt enough)
  induction r generalizing n with
  | missingAttribute a =>
    have record : (Json.object [("attribute", .string a)]).record ["attribute"] = some [some (.string a)] :=
      Json.record_object rfl rfl rfl (by simp)
    simp [encode, decodeWithin, Json.variant, record, Json.string?]
  | resolverFailure a m =>
    have record : (Json.object [("attribute", .string a), ("message", .string m)]).record
        ["attribute", "message"] = some [some (.string a), some (.string m)] :=
      Json.record_object rfl rfl rfl (by simp)
    simp [encode, decodeWithin, Json.variant, record, Json.string?]
  | multipleApplicable p =>
    have record : (Json.object [("policy", .string p)]).record ["policy"] = some [some (.string p)] :=
      Json.record_object rfl rfl rfl (by simp)
    simp [encode, decodeWithin, Json.variant, record, Json.string?]
  | obligationFailed o cause ih =>
    simp only [encode, Json.depth_record, Json.depthOfFields] at enough
    have record : (Json.object [("obligation", .string o), ("cause", cause.encode)]).record
        ["obligation", "cause"] = some [some (.string o), some cause.encode] :=
      Json.record_object rfl rfl rfl (by simp)
    have inner : decodeWithin n cause.encode = some cause := by
      obtain ⟨n, rfl⟩ := Nat.exists_eq_add_one.mpr (show 0 < n by omega)
      exact ih n (by omega)
    simp [encode, decodeWithin, Json.variant, record, Json.string?, inner]
  | _ d => simp [encode, decodeWithin, Json.variant, Json.string?]

theorem decode_encode (r : Reason) : decode r.encode = some r := r.decodeWithin_encode (Nat.lt_succ_self _)

theorem encode_legible (r : Reason) : r.encode.Legible number := by
  induction r with
  | obligationFailed o cause ih => exact .variant (.object (by simp [Legible.string, ih])) _
  | missingAttribute a => exact .variant (.variant (.string a) _) _
  | multipleApplicable p => exact .variant (.variant (.string p) _) _
  | resolverFailure a m => exact .variant (.object (by simp [Legible.string])) _
  | _ d => exact .variant (.string d) _

end Reason

namespace Decision

theorem decode_encode (d : Decision) : decode d.encode = some d := by
  cases d with
  | permit => rfl
  | deny => rfl
  | notApplicable => rfl
  | indeterminate x r =>
    have record : (Json.object [("extent", x.encode), ("reason", r.encode)]).record ["extent", "reason"] =
        some [some x.encode, some r.encode] :=
      Json.record_object rfl rfl rfl (by simp)
    simp [encode, decode, Json.plainVariant, Json.variant, record, x.decode_encode, r.decode_encode]

theorem encode_legible (d : Decision) : d.encode.Legible number := by
  cases d with
  | permit => exact .string _
  | deny => exact .string _
  | notApplicable => exact .string _
  | indeterminate x r =>
    exact .variant (.object (by simp [Extent.encode, Legible.string, r.encode_legible])) _

end Decision

namespace Assignment

def doubles (a : Assignment) : List Double := a.value.doubles

theorem decode_encode (a : Assignment) (finite : ∀ d ∈ a.doubles, d.isFinite) :
    decode a.encode = some a := by
  have record : a.encode.record ["name", "value"] = some [some (.string a.name), some a.value.encode] :=
    Json.record_object rfl rfl rfl (by simp)
  simp [decode, record, Json.string?, a.value.decode_encode finite]

theorem encode_legible (a : Assignment) (legible : ∀ d ∈ a.doubles, number d) : a.encode.Legible number :=
  .object (by simp [Legible.string, a.value.encode_legible legible])

end Assignment

namespace FulfilledObligation

def doubles (o : FulfilledObligation) : List Double := o.assignments.flatMap Assignment.doubles

theorem decode_encode (o : FulfilledObligation) (finite : ∀ d ∈ o.doubles, d.isFinite) :
    decode o.encode = some o := by
  have record : o.encode.record ["id", "assignments"] =
      some [some (.string o.id), some (.array (o.assignments.map Assignment.encode))] :=
    Json.record_object rfl rfl rfl (by simp)
  have assignments : Json.list Assignment.decode (.array (o.assignments.map Assignment.encode)) =
      some o.assignments :=
    Json.list_of_doubles finite fun a _ => a.decode_encode
  simp [decode, record, Json.string?, assignments]

theorem encode_legible (o : FulfilledObligation) (legible : ∀ d ∈ o.doubles, number d) :
    o.encode.Legible number := by
  have assignments : (Json.array (o.assignments.map Assignment.encode)).Legible number :=
    .list_of_doubles legible fun a _ => a.encode_legible
  exact .object (by simp [Legible.string, assignments])

end FulfilledObligation

namespace Response

def doubles (r : Response) : List Double := r.obligations.flatMap FulfilledObligation.doubles

theorem decode_encode (r : Response) (finite : ∀ d ∈ r.doubles, d.isFinite) : decode r.encode = some r := by
  have record : r.encode.record ["decision", "obligations"] =
      some [some r.decision.encode, some (.array (r.obligations.map FulfilledObligation.encode))] :=
    Json.record_object rfl rfl rfl (by simp)
  have obligations : Json.list FulfilledObligation.decode
      (.array (r.obligations.map FulfilledObligation.encode)) = some r.obligations :=
    Json.list_of_doubles finite fun o _ => o.decode_encode
  simp [decode, record, r.decision.decode_encode, obligations]

theorem encode_legible (r : Response) (legible : ∀ d ∈ r.doubles, number d) : r.encode.Legible number := by
  have obligations : (Json.array (r.obligations.map FulfilledObligation.encode)).Legible number :=
    .list_of_doubles legible fun o _ => o.encode_legible
  exact .object (by simp [r.decision.encode_legible, obligations])

end Response

end AccessControl
