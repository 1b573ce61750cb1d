import AccessControl.Effect
import AccessControl.Expression.Basic

namespace AccessControl

structure AssignmentRule where
  name : String
  value : Expression

/-- What must be done when the node that carries it contributes to a decision for `fulfillOn`. -/
structure Obligation where
  id : String
  fulfillOn : Effect
  assignments : List AssignmentRule

structure Rule where
  id : String
  target : Option Expression
  condition : Option Expression
  effect : Effect
  obligations : List Obligation

inductive Algorithm where
  | denyOverrides
  | permitOverrides
  | firstApplicable
  | onlyOneApplicable
  | denyUnlessPermit
  | permitUnlessDeny
deriving DecidableEq

namespace Algorithm

def all : List Algorithm :=
  [denyOverrides, permitOverrides, firstApplicable, onlyOneApplicable, denyUnlessPermit, permitUnlessDeny]

def name : Algorithm → String
  | denyOverrides => "deny-overrides"
  | permitOverrides => "permit-overrides"
  | firstApplicable => "first-applicable"
  | onlyOneApplicable => "only-one-applicable"
  | denyUnlessPermit => "deny-unless-permit"
  | permitUnlessDeny => "permit-unless-deny"

def ofName? (s : String) : Option Algorithm := all.find? fun a => a.name == s

/-- The effect of a set without an applicable child, for the algorithms that always decide. -/
def default? : Algorithm → Option Effect
  | denyUnlessPermit => some .deny
  | permitUnlessDeny => some .permit
  | _ => none

end Algorithm

structure SetHeader where
  id : String
  target : Option Expression
  algorithm : Algorithm
  obligations : List Obligation

inductive Policy where
  | rule (rule : Rule)
  | set (header : SetHeader) (children : List Policy)

def Obligation.forEffect (os : List Obligation) (e : Effect) : List Obligation :=
  os.filter fun o => o.fulfillOn == e

namespace Policy

def id : Policy → String
  | rule r => r.id
  | set h _ => h.id

def target : Policy → Option Expression
  | rule r => r.target
  | set h _ => h.target

def children : Policy → List Policy
  | rule _ => []
  | set _ cs => cs

mutual

def possibleEffects : Policy → Option Extent
  | rule r => some (.ofEffect r.effect)
  | set h cs =>
    Extent.unionAll (possibleEffectsOf cs ++ (h.algorithm.default?.map Extent.ofEffect).toList)

def possibleEffectsOf : List Policy → List Extent
  | [] => []
  | c :: cs => c.possibleEffects.toList ++ possibleEffectsOf cs

end

mutual

def depth : Policy → Nat
  | rule _ => 1
  | set _ cs => 1 + depthOf cs

def depthOf : List Policy → Nat
  | [] => 0
  | c :: cs => max c.depth (depthOf cs)

end

mutual

def nodeCount : Policy → Nat
  | rule _ => 1
  | set _ cs => 1 + nodeCountOf cs

def nodeCountOf : List Policy → Nat
  | [] => 0
  | c :: cs => c.nodeCount + nodeCountOf cs

end

mutual

def nodes : Policy → List Policy
  | rule r => [rule r]
  | set h cs => set h cs :: nodesOf cs

def nodesOf : List Policy → List Policy
  | [] => []
  | c :: cs => c.nodes ++ nodesOf cs

end

end Policy

end AccessControl
