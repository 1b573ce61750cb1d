import AccessControl.Effect
import AccessControl.Reason
import AccessControl.Value.Bag

namespace AccessControl

inductive Decision where
  | permit
  | deny
  | notApplicable
  | indeterminate (extent : Extent) (reason : Reason)
deriving DecidableEq

namespace Decision

def ofEffect : Effect → Decision
  | .permit => permit
  | .deny => deny

def effect? : Decision → Option Effect
  | permit => some .permit
  | deny => some .deny
  | _ => none

def isApplicable : Decision → Bool
  | notApplicable => false
  | _ => true

def extent? : Decision → Option Extent
  | permit => some .permit
  | deny => some .deny
  | notApplicable => none
  | indeterminate x _ => some x

def reason? : Decision → Option Reason
  | indeterminate _ r => some r
  | _ => none

def text : Decision → String
  | permit => "Permit"
  | deny => "Deny"
  | notApplicable => "NotApplicable"
  | indeterminate x r => "Indeterminate\x7b" ++ x.text ++ "\x7d: " ++ r.message

end Decision

structure Assignment where
  name : String
  value : AttributeValue

structure FulfilledObligation where
  id : String
  assignments : List Assignment

def FulfilledObligation.get? (o : FulfilledObligation) (name : String) : Option AttributeValue :=
  (o.assignments.find? fun a => a.name == name).map Assignment.value

structure Response where
  decision : Decision
  obligations : List FulfilledObligation

namespace Response

def bare (d : Decision) : Response := ⟨d, []⟩

def hasObligation (r : Response) (id : String) : Bool := r.obligations.any fun o => o.id == id

def same (a b : Response) : Bool :=
  let sameAssignment (x y : Assignment) : Bool := x.name == y.name && x.value == y.value
  let sameObligation (x y : FulfilledObligation) : Bool :=
    x.id == y.id && x.assignments.length == y.assignments.length &&
      (x.assignments.zip y.assignments).all fun (p, q) => sameAssignment p q
  a.decision == b.decision && a.obligations.length == b.obligations.length &&
    (a.obligations.zip b.obligations).all fun (p, q) => sameObligation p q

instance : BEq Response := ⟨same⟩

end Response

end AccessControl
