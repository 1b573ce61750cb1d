import AccessControl.Catalog
import AccessControl.Policy.Basic

namespace AccessControl

def AttributeId.validate (catalog : Catalog) (path : String) (a : AttributeId) : Except PolicyError Unit :=
  match catalog.get? a.category a.name with
  | none => .error (.undeclaredAttribute path a)
  | some declared => if declared = a then .ok () else .error (.attributeMismatch path declared a)

def AttributeValue.validate (path : String) : AttributeValue → Except PolicyError Unit
  | bag b => if b.isHomogeneous then .ok () else .error (.heterogeneousBag path)
  | simple _ => .ok ()

def Function.validate (path : String) (f : Function) (args : List Expression) : Except PolicyError Unit :=
  if args.length ≠ f.arity then .error (.arity path f args.length)
  else if f = .isPresent then
    match args with
    | [.ref _] => .ok ()
    | _ => .error (.isPresentArgument path)
  else .ok ()

namespace Expression

mutual

def validate (catalog : Catalog) (path : String) : Expression → Except PolicyError Unit
  | literal v => v.validate path
  | ref a => a.validate catalog path
  | compare _ l r => do
    l.validate catalog path
    r.validate catalog path
  | and es => validateAll catalog path es
  | or es => validateAll catalog path es
  | not e => e.validate catalog path
  | call f es => do
    f.validate path es
    validateAll catalog path es

def validateAll (catalog : Catalog) (path : String) : List Expression → Except PolicyError Unit
  | [] => .ok ()
  | e :: es => do
    e.validate catalog path
    validateAll catalog path es

end

def validateIfPresent (catalog : Catalog) (path : String) : Option Expression → Except PolicyError Unit
  | none => .ok ()
  | some e => e.validate catalog path

end Expression

namespace Obligation

def validate (catalog : Catalog) (path : String) (o : Obligation) : Except PolicyError Unit :=
  if o.id.isEmpty then .error (.emptyId path)
  else Expression.validateAll catalog (path ++ "#" ++ o.id) (o.assignments.map AssignmentRule.value)

def validateAll (catalog : Catalog) (path : String) : List Obligation → Except PolicyError Unit
  | [] => .ok ()
  | o :: os => do
    o.validate catalog path
    validateAll catalog path os

def validateEffects (path : String) (e : Effect) : List Obligation → Except PolicyError Unit
  | [] => .ok ()
  | o :: os => if o.fulfillOn = e then validateEffects path e os else .error (.obligationEffect path o.id)

end Obligation

def Rule.validate (catalog : Catalog) (path : String) (r : Rule) : Except PolicyError Unit := do
  Expression.validateIfPresent catalog path r.target
  Expression.validateIfPresent catalog path r.condition
  Obligation.validateEffects path r.effect r.obligations
  Obligation.validateAll catalog path r.obligations

def SetHeader.validate (catalog : Catalog) (path : String) (h : SetHeader) : Except PolicyError Unit := do
  Expression.validateIfPresent catalog path h.target
  Obligation.validateAll catalog path h.obligations

namespace Policy

def validateId (path : String) (seen : List String) (id : String) : Except PolicyError Unit :=
  if id.isEmpty then .error (.emptyId path)
  else if seen.contains id then .error (.duplicateId path id)
  else .ok ()

mutual

def validateNode (catalog : Catalog) (maxDepth : Nat) (path : String) (depth : Nat) :
    Policy → Except PolicyError Unit
  | rule r => if maxDepth < depth then .error (.tooDeep maxDepth) else r.validate catalog path
  | set h cs =>
    if maxDepth < depth then .error (.tooDeep maxDepth)
    else do
      h.validate catalog path
      validateChildren catalog maxDepth path (depth + 1) [] cs

def validateChildren (catalog : Catalog) (maxDepth : Nat) (path : String) (depth : Nat) (seen : List String) :
    List Policy → Except PolicyError Unit
  | [] => .ok ()
  | p :: ps => do
    validateId path seen p.id
    p.validateNode catalog maxDepth (path ++ "/" ++ p.id) depth
    validateChildren catalog maxDepth path depth (p.id :: seen) ps

end

def validate (p : Policy) (catalog : Catalog) (maxDepth : Nat) : Except PolicyError Unit :=
  if p.id.isEmpty then .error (.emptyId "<root>")
  else p.validateNode catalog maxDepth p.id 1

end Policy

end AccessControl
