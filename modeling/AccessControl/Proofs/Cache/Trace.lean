import AccessControl.Policy.Basic
import AccessControl.Resolver

namespace AccessControl

/-- The second cache comes from the first by look-ups of some of these attributes, in their order,
and by visits of nodes. -/
inductive Cache.Trace (ctx : Context) : List AttributeId → Cache → Cache → Prop where
  | done (c : Cache) : Trace ctx [] c c
  | skip (a : AttributeId) {as : List AttributeId} {c d : Cache} :
    Trace ctx as c d → Trace ctx (a :: as) c d
  | look (a : AttributeId) {as : List AttributeId} {c d : Cache} :
    Trace ctx as (c.lookup ctx a).2 d → Trace ctx (a :: as) c d
  | visit {as : List AttributeId} {c d : Cache} : Trace ctx as c.visitNode d → Trace ctx as c d

namespace Cache.Trace

variable {ctx : Context} {as bs : List AttributeId} {c d e : Cache}

theorem refl (as : List AttributeId) (c : Cache) : Trace ctx as c c := by
  induction as with
  | nil => exact done c
  | cons a as ih => exact skip a ih

theorem trans (first : Trace ctx as c d) (second : Trace ctx bs d e) : Trace ctx (as ++ bs) c e := by
  induction first with
  | done c => exact second
  | skip a _ ih => exact skip a (ih second)
  | look a _ ih => exact look a (ih second)
  | visit _ ih => exact visit (ih second)

theorem invariant {P : Cache → Prop} (t : Trace ctx as c d) (start : P c)
    (look : ∀ c, ∀ a ∈ as, P c → P (c.lookup ctx a).2) (visit : ∀ c, P c → P c.visitNode) : P d := by
  induction t with
  | done c => exact start
  | skip a _ ih => exact ih start fun c b member => look c b (List.mem_cons_of_mem a member)
  | look a _ ih =>
    exact ih (look _ a List.mem_cons_self start) fun c b member => look c b (List.mem_cons_of_mem a member)
  | visit _ ih => exact ih (visit _ start) look

end Cache.Trace

def Expression.attributesIfPresent : Option Expression → List AttributeId
  | none => []
  | some e => e.attributes

def Rule.attributes (r : Rule) : List AttributeId :=
  Expression.attributesIfPresent r.target ++ Expression.attributesIfPresent r.condition

namespace Policy

mutual

def attributes : Policy → List AttributeId
  | rule r => r.attributes
  | set h ps => Expression.attributesIfPresent h.target ++ attributesOf ps

def attributesOf : List Policy → List AttributeId
  | [] => []
  | p :: ps => p.attributes ++ attributesOf ps

end

end Policy

def Obligation.attributes (os : List Obligation) : List AttributeId :=
  os.flatMap fun o => o.assignments.flatMap fun a => a.value.attributes

end AccessControl
