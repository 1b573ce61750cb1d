import AccessControl.Policy.Evaluate
import AccessControl.Policy.Validate

namespace AccessControl

structure Options where
  auditDecisions : Bool
  maxDepth : Nat
deriving DecidableEq

def Options.default : Options := ⟨true, 64⟩

namespace Obligation

def assign (ctx : Context) : List AssignmentRule → Cache → Except Reason (List Assignment) × Cache
  | [], c => (.ok [], c)
  | a :: as, c =>
    match a.value.value ctx c with
    | (.error r, c) => (.error r, c)
    | (.ok v, c) =>
      match assign ctx as c with
      | (.error r, c) => (.error r, c)
      | (.ok rest, c) => (.ok (⟨a.name, v⟩ :: rest), c)

def fulfill (ctx : Context) : List Obligation → Cache → Except Reason (List FulfilledObligation) × Cache
  | [], c => (.ok [], c)
  | o :: os, c =>
    match assign ctx o.assignments c with
    | (.error r, c) => (.error (.obligationFailed o.id r), c)
    | (.ok assignments, c) =>
      match fulfill ctx os c with
      | (.error r, c) => (.error r, c)
      | (.ok rest, c) => (.ok (⟨o.id, assignments⟩ :: rest), c)

end Obligation

/-- An effect goes out with its fulfilled obligations; where one fails the effect is only what could
have been. -/
def Outcome.respond (ctx : Context) (o : Outcome) (c : Cache) : Response × Cache :=
  match o.decision.effect? with
  | none => (.bare o.decision, c)
  | some e =>
    match Obligation.fulfill ctx o.obligations c with
    | (.ok os, c) => (⟨o.decision, os⟩, c)
    | (.error r, c) => (.bare (.indeterminate (.ofEffect e) r), c)

def Policy.respond (ctx : Context) (p : Policy) : Response × Cache :=
  match p.evaluate ctx .empty with
  | (o, c) => o.respond ctx c

structure DecisionPoint where
  policy : Policy
  catalog : Catalog
  resolver : Resolver
  options : Options
  valid : policy.validate catalog options.maxDepth = .ok ()

namespace DecisionPoint

def load (policy : Policy) (catalog : Catalog) (options : Options) : Except PolicyError DecisionPoint :=
  match h : policy.validate catalog options.maxDepth with
  | .error e => .error e
  | .ok () => .ok ⟨policy, catalog, .empty, options, h⟩

def withResolver (p : DecisionPoint) (resolver : Resolver) : DecisionPoint where
  policy := p.policy
  catalog := p.catalog
  resolver := resolver
  options := p.options
  valid := p.valid

def withoutAudit (p : DecisionPoint) : DecisionPoint where
  policy := p.policy
  catalog := p.catalog
  resolver := p.resolver
  options := ⟨false, p.options.maxDepth⟩
  valid := p.valid

def respond (p : DecisionPoint) (r : Request) : Response × Cache := p.policy.respond ⟨r, p.resolver⟩

def summary (p : DecisionPoint) : String :=
  "Pdp \x7b root: \"" ++ p.policy.id ++ "\", attributes: " ++ toString p.catalog.size ++
    ", options: PdpOptions \x7b audit_decisions: " ++ toString p.options.auditDecisions ++ ", max_depth: " ++
    toString p.options.maxDepth ++ " \x7d, .. \x7d"

end DecisionPoint

end AccessControl
