import AccessControl.Document.Policy
import AccessControl.Proofs.Documents.Value
import AccessControl.Proofs.Induction

namespace AccessControl

open Json (Legible)

variable {number : Double → Prop}

theorem CompareOp.decode_encode (inNode : Bool) (op : CompareOp) : decode inNode op.encode = some op := by
  cases op <;> rfl

theorem Function.decode_encode (inNode : Bool) (f : Function) : decode inNode f.encode = some f := by
  cases f <;> rfl

theorem Effect.decode_encode (inNode : Bool) (e : Effect) : decode inNode e.encode = some e := by
  cases e <;> rfl

theorem Algorithm.decode_encode (inNode : Bool) (a : Algorithm) : decode inNode a.encode = some a := by
  cases a <;> rfl

namespace Expression

mutual

def doubles : Expression → List Double
  | literal v => v.doubles
  | ref _ => []
  | compare _ l r => l.doubles ++ r.doubles
  | and es => doublesOf es
  | or es => doublesOf es
  | not e => e.doubles
  | call _ es => doublesOf es

def doublesOf : List Expression → List Double
  | [] => []
  | e :: es => e.doubles ++ doublesOf es

end

theorem doublesOf_eq_flatMap (es : List Expression) : doublesOf es = es.flatMap doubles := by
  induction es with
  | nil => rfl
  | cons e es ih => rw [doublesOf, ih, List.flatMap_cons]

theorem encodeAll_eq_map (es : List Expression) : encodeAll es = es.map encode := by
  induction es with
  | nil => rfl
  | cons e es ih => rw [encodeAll, ih, List.map_cons]

theorem list_legible {es : List Expression}
    (each : ∀ e ∈ es, (∀ d ∈ e.doubles, number d) → e.encode.Legible number)
    (legible : ∀ d ∈ doublesOf es, number d) : (Json.array (encodeAll es)).Legible number := by
  rw [doublesOf_eq_flatMap] at legible
  rw [encodeAll_eq_map]
  exact .list_of_doubles legible each

/-- The form of the expression is decoded whenever its depth is allowed. -/
def Decodes (inNode : Bool) (e : Expression) : Prop :=
  ∀ n, e.encode.depth < n → decodeWithin inNode n e.encode = some e

theorem Decodes.of_succ {inNode : Bool} {e : Expression}
    (decodes : ∀ n, e.encode.depth ≤ n → decodeWithin inNode (n + 1) e.encode = some e) :
    e.Decodes inNode := by
  intro n enough
  obtain ⟨n, rfl⟩ := Nat.exists_eq_add_one_of_ne_zero (Nat.ne_zero_of_lt enough)
  exact decodes n (Nat.le_of_lt_succ enough)

theorem list_encodeAll {inNode : Bool} {es : List Expression}
    (each : ∀ e ∈ es, (∀ d ∈ e.doubles, d.isFinite) → e.Decodes inNode)
    (finite : ∀ d ∈ doublesOf es, d.isFinite)
    {n : Nat} (enough : (Json.array (encodeAll es)).depth ≤ n) :
    Json.list (decodeWithin inNode n) (.array (encodeAll es)) = some es := by
  rw [doublesOf_eq_flatMap] at finite
  rw [encodeAll_eq_map] at enough ⊢
  refine Json.list_of_doubles finite fun e member inside => each e member inside n ?_
  exact Nat.lt_of_lt_of_le (Json.depth_item_lt (List.mem_map_of_mem member)) enough

theorem decodes (inNode : Bool) (e : Expression) (finite : ∀ d ∈ e.doubles, d.isFinite) :
    e.Decodes inNode := by
  induction e with
  | literal v =>
    refine .of_succ fun n _ => ?_
    simp [encode, decodeWithin, Json.variant, v.decode_encode finite]
  | ref a =>
    refine .of_succ fun n _ => ?_
    simp [encode, decodeWithin, Json.variant, a.decode_encode]
  | compare op l r left right =>
    refine .of_succ fun n enough => ?_
    obtain ⟨leftFinite, rightFinite⟩ := List.forall_mem_append.mp finite
    simp only [encode, Json.depth, Json.depthOfFields] at enough
    have record : (Json.object [("op", op.encode), ("left", l.encode), ("right", r.encode)]).record
        ["op", "left", "right"] = some [some op.encode, some l.encode, some r.encode] :=
      Json.record_object rfl rfl rfl (by simp)
    simp [encode, decodeWithin, Json.variant, record, op.decode_encode, left leftFinite n (by omega),
      right rightFinite n (by omega)]
  | and es each =>
    refine .of_succ fun n enough => ?_
    rw [encode, Json.depth_variant] at enough
    have operands := list_encodeAll each finite (show _ ≤ n by omega)
    simp [encode, decodeWithin, Json.variant, operands]
  | or es each =>
    refine .of_succ fun n enough => ?_
    rw [encode, Json.depth_variant] at enough
    have operands := list_encodeAll each finite (show _ ≤ n by omega)
    simp [encode, decodeWithin, Json.variant, operands]
  | not e operand =>
    refine .of_succ fun n enough => ?_
    rw [encode, Json.depth_variant] at enough
    simp [encode, decodeWithin, Json.variant, operand finite n (by omega)]
  | call f es each =>
    refine .of_succ fun n enough => ?_
    simp only [encode, Json.depth_record, Json.depthOfFields] at enough
    have operands := list_encodeAll each finite (show _ ≤ n by omega)
    have record : (Json.object [("function", f.encode), ("args", .array (encodeAll es))]).record
        ["function", "args"] = some [some f.encode, some (.array (encodeAll es))] :=
      Json.record_object rfl rfl rfl (by simp)
    simp [encode, decodeWithin, Json.variant, record, f.decode_encode, operands]

theorem decode_encode (inNode : Bool) (e : Expression) (finite : ∀ d ∈ e.doubles, d.isFinite) :
    decode inNode e.encode = some e :=
  e.decodes inNode finite _ (Nat.lt_succ_self _)

theorem encode_legible (e : Expression) (legible : ∀ d ∈ e.doubles, number d) :
    e.encode.Legible number := by
  induction e with
  | literal v => exact (v.encode_legible legible).variant _
  | ref a => exact a.encode_legible.variant _
  | compare op l r left right =>
    obtain ⟨leftLegible, rightLegible⟩ := List.forall_mem_append.mp legible
    have fields : ∀ f ∈ [("op", op.encode), ("left", l.encode), ("right", r.encode)], f.2.Legible number := by
      simp [CompareOp.encode, Legible.string, left leftLegible, right rightLegible]
    exact .variant (.object fields) _
  | and es each => exact (list_legible each legible).variant _
  | or es each => exact (list_legible each legible).variant _
  | not e operand => exact (operand legible).variant _
  | call f es each =>
    exact .variant (.object (by simp [Function.encode, Legible.string, list_legible each legible])) _

def doublesIfPresent : Option Expression → List Double
  | none => []
  | some e => e.doubles

theorem optional_encode (inNode : Bool) (t : Option Expression)
    (finite : ∀ d ∈ doublesIfPresent t, d.isFinite) :
    Json.optional (decode inNode) (some (Json.ofOption encode t)) = some t := by
  cases t with
  | none => rfl
  | some e =>
    have decoded := e.decode_encode inNode finite
    obtain ⟨fields, form⟩ : ∃ fields, e.encode = .object fields := by cases e <;> exact ⟨_, rfl⟩
    rw [form] at decoded
    simp [Json.ofOption, form, Json.optional, decoded]

theorem ofOption_legible (t : Option Expression) (legible : ∀ d ∈ doublesIfPresent t, number d) :
    (Json.ofOption encode t).Legible number := by
  cases t with
  | none => exact .null
  | some e => exact e.encode_legible legible

end Expression

namespace AssignmentRule

def doubles (a : AssignmentRule) : List Double := a.value.doubles

theorem decode_encode (inNode : Bool) (a : AssignmentRule) (finite : ∀ d ∈ a.doubles, d.isFinite) :
    decode inNode a.encode = some a := by
  have record : a.encode.record ["name", "value"] = some [some (.string a.name), some a.value.encode] :=
    Json.record_object rfl rfl rfl (by simp)
  simp [decode, record, Json.string?, a.value.decode_encode inNode finite]

theorem encode_legible (a : AssignmentRule) (legible : ∀ d ∈ a.doubles, number d) :
    a.encode.Legible number :=
  .object (by simp [Legible.string, a.value.encode_legible legible])

end AssignmentRule

namespace Obligation

def doubles (o : Obligation) : List Double := o.assignments.flatMap AssignmentRule.doubles

theorem decode_encode (inNode : Bool) (o : Obligation) (finite : ∀ d ∈ o.doubles, d.isFinite) :
    decode inNode o.encode = some o := by
  have record : o.encode.record ["id", "fulfill_on", "assignments"] = some [some (.string o.id),
      some o.fulfillOn.encode, some (.array (o.assignments.map AssignmentRule.encode))] :=
    Json.record_object rfl rfl rfl (by simp)
  have assignments :
      Json.list (AssignmentRule.decode inNode) (.array (o.assignments.map AssignmentRule.encode)) =
      some o.assignments :=
    Json.list_of_doubles finite fun a _ => a.decode_encode inNode
  simp [decode, record, Json.string?, o.fulfillOn.decode_encode, Json.orDefault, assignments]

theorem encode_legible (o : Obligation) (legible : ∀ d ∈ o.doubles, number d) :
    o.encode.Legible number := by
  have assignments : (Json.array (o.assignments.map AssignmentRule.encode)).Legible number :=
    .list_of_doubles legible fun a _ => a.encode_legible
  exact .object (by simp [Effect.encode, Legible.string, assignments])

def doublesOf (os : List Obligation) : List Double := os.flatMap doubles

theorem list_encode (inNode : Bool) (os : List Obligation) (finite : ∀ d ∈ doublesOf os, d.isFinite) :
    Json.orDefault [] (Json.list (decode inNode)) (some (.array (os.map encode))) = some os :=
  Json.list_of_doubles finite fun o _ => o.decode_encode inNode

theorem list_legible (os : List Obligation) (legible : ∀ d ∈ doublesOf os, number d) :
    (Json.array (os.map encode)).Legible number :=
  .list_of_doubles legible fun o _ => o.encode_legible

end Obligation

namespace Policy

mutual

def doubles : Policy → List Double
  | rule r =>
    Expression.doublesIfPresent r.target ++ (Expression.doublesIfPresent r.condition ++
      Obligation.doublesOf r.obligations)
  | set h ps =>
    Expression.doublesIfPresent h.target ++ (Obligation.doublesOf h.obligations ++ doublesOf ps)

def doublesOf : List Policy → List Double
  | [] => []
  | p :: ps => p.doubles ++ doublesOf ps

end

theorem doublesOf_eq_flatMap (ps : List Policy) : doublesOf ps = ps.flatMap doubles := by
  induction ps with
  | nil => rfl
  | cons p ps ih => rw [doublesOf, ih, List.flatMap_cons]

theorem encodeAll_eq_map (ps : List Policy) : encodeAll ps = ps.map encode := by
  induction ps with
  | nil => rfl
  | cons p ps ih => rw [encodeAll, ih, List.map_cons]

theorem decodeRule_encode (r : Rule) (finite : ∀ d ∈ (rule r).doubles, d.isFinite) :
    decodeRule (rule r).encode = some r := by
  rw [doubles, List.forall_mem_append, List.forall_mem_append] at finite
  obtain ⟨target, condition, obligations⟩ := finite
  have record : (rule r).encode.record ["kind", "id", "target", "condition", "effect", "obligations"] =
      some [some (.string "rule"), some (.string r.id), some (Json.ofOption Expression.encode r.target),
        some (Json.ofOption Expression.encode r.condition), some r.effect.encode,
        some (.array (r.obligations.map Obligation.encode))] :=
    Json.record_object (by rw [encode]) rfl rfl (by simp)
  simp [decodeRule, record, Json.string?, Expression.optional_encode true _ target,
    Expression.optional_encode true _ condition, r.effect.decode_encode,
    Obligation.list_encode true _ obligations]

theorem decodeWithin_encode (inNode : Bool) (p : Policy) (finite : ∀ d ∈ p.doubles, d.isFinite) {n : Nat}
    (enough : p.encode.depth < n) : decodeWithin inNode n p.encode = some p := by
  induction p generalizing inNode n with
  | rule r =>
    obtain ⟨n, rfl⟩ := Nat.exists_eq_add_one_of_ne_zero (Nat.ne_zero_of_lt enough)
    have kind : (kindField (rule r).encode).bind (decodeKind inNode) = some .rule := by
      simp [encode, kindField, Json.field?, decodeKind]
    simp [decodeWithin, kind, decodeRule_encode r finite]
  | set h ps each =>
    obtain ⟨n, rfl⟩ := Nat.exists_eq_add_one_of_ne_zero (Nat.ne_zero_of_lt enough)
    rw [doubles, List.forall_mem_append, List.forall_mem_append] at finite
    obtain ⟨target, obligations, inside⟩ := finite
    have kind : (kindField (set h ps).encode).bind (decodeKind inNode) = some .set := by
      simp [encode, kindField, Json.field?, decodeKind]
    have record : (set h ps).encode.record ["kind", "id", "target", "algorithm", "children", "obligations"] =
        some [some (.string "set"), some (.string h.id), some (Json.ofOption Expression.encode h.target),
          some h.algorithm.encode, some (.array (encodeAll ps)),
          some (.array (h.obligations.map Obligation.encode))] :=
      Json.record_object (by rw [encode]) rfl rfl (by simp)
    have children : Json.orDefault [] (Json.list (decodeWithin true n)) (some (.array (encodeAll ps))) =
        some ps := by
      have within : (Json.array (encodeAll ps)).depth < (set h ps).encode.depth := by
        rw [encode]
        exact Json.depth_field_lt (f := ("children", _)) (by simp)
      rw [doublesOf_eq_flatMap] at inside
      rw [encodeAll_eq_map] at within ⊢
      refine Json.list_of_doubles inside fun p member deep => each p member true deep ?_
      have below := Json.depth_item_lt (List.mem_map_of_mem (f := encode) member)
      omega
    simp [decodeWithin, kind, record, Json.string?, Expression.optional_encode true _ target,
      h.algorithm.decode_encode, Obligation.list_encode true _ obligations, children]

theorem encode_legible (p : Policy) (legible : ∀ d ∈ p.doubles, number d) : p.encode.Legible number := by
  induction p with
  | rule r =>
    rw [doubles, List.forall_mem_append, List.forall_mem_append] at legible
    obtain ⟨target, condition, obligations⟩ := legible
    rw [encode]
    exact .object (by simp [Legible.string, Effect.encode, Expression.ofOption_legible _ target,
      Expression.ofOption_legible _ condition, Obligation.list_legible _ obligations])
  | set h ps each =>
    rw [doubles, List.forall_mem_append, List.forall_mem_append] at legible
    obtain ⟨target, obligations, inside⟩ := legible
    have children : (Json.array (encodeAll ps)).Legible number := by
      rw [doublesOf_eq_flatMap] at inside
      rw [encodeAll_eq_map]
      exact .list_of_doubles inside each
    rw [encode]
    exact .object (by simp [Legible.string, Algorithm.encode, Expression.ofOption_legible _ target, children,
      Obligation.list_legible _ obligations])

theorem decode_encode (p : Policy) (finite : ∀ d ∈ p.doubles, d.isFinite) : decode p.encode = some p := by
  have readable : p.encode.readable := (@encode_legible (fun _ => True) p fun _ _ => trivial).readable
  rw [decode, if_pos readable]
  exact p.decodeWithin_encode false finite (Nat.lt_succ_self _)

end Policy

namespace PolicyDocument

def doubles (d : PolicyDocument) : List Double := d.policy.doubles

theorem decode_encode (d : PolicyDocument) (finite : ∀ x ∈ d.doubles, x.isFinite) :
    decode d.encode = some d := by
  have record : d.encode.record ["attributes", "policy"] =
      some [some (.array (d.attributes.map AttributeId.encode)), some d.policy.encode] :=
    Json.record_object rfl rfl rfl (by simp)
  have attributes : Json.list (AttributeId.decode false) (.array (d.attributes.map AttributeId.encode)) =
      some d.attributes :=
    Json.list_map fun a _ => a.decode_encode false
  simp [decode, record, Json.orDefault, attributes, d.policy.decode_encode finite]

theorem encode_legible (d : PolicyDocument) (legible : ∀ x ∈ d.doubles, number x) :
    d.encode.Legible number := by
  have attributes : (Json.array (d.attributes.map AttributeId.encode)).Legible number :=
    .list fun a _ => a.encode_legible
  exact .object (by simp [attributes, d.policy.encode_legible legible])

end PolicyDocument

end AccessControl
