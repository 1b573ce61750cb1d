import AccessControl.Reason
import AccessControl.Request

namespace AccessControl

inductive ResolverError where
  | unavailable (detail : String)
  | invalidData (detail : String)

def ResolverError.message : ResolverError → String
  | unavailable d => "attribute source unavailable: " ++ d
  | invalidData d => "invalid attribute data: " ++ d

/-- The answer to an attribute may depend on the request and on the attributes asked for before. -/
abbrev Resolver := Request → List AttributeId → AttributeId → Except ResolverError (Option AttributeValue)

namespace Resolver

def empty : Resolver := fun _ _ _ => .ok none

def ofFunction (f : AttributeId → Except ResolverError (Option AttributeValue)) : Resolver :=
  fun _ _ a => f a

end Resolver

inductive Answer where
  | found (v : AttributeValue)
  | missing
  | failed (message : String)

namespace Answer

def ofResolver : Except ResolverError (Option AttributeValue) → Answer
  | .ok (some v) => found v
  | .ok none => missing
  | .error e => failed e.message

/-- The value, if it has the declared type and multiplicity. -/
def check (a : AttributeId) (v : AttributeValue) : Except Reason AttributeValue :=
  if v.conformsTo a then .ok v
  else
    .error (.typeMismatch
      ("'" ++ a.text ++ "' is declared " ++ a.shape ++ " but resolved to " ++ v.describe))

def value (a : AttributeId) : Answer → Except Reason AttributeValue
  | found v => check a v
  | missing => .error (.missingAttribute a.text)
  | failed m => .error (.resolverFailure a.text m)

end Answer

structure Stats where
  resolverCalls : Nat
  cacheHits : Nat
  nodesVisited : Nat
deriving DecidableEq

structure Context where
  request : Request
  resolver : Resolver

/-- The answers so far, the cost so far, and the attributes asked for, in order. -/
structure Cache where
  answers : List (AttributeId × Answer)
  stats : Stats
  calls : List AttributeId

namespace Cache

def empty : Cache := ⟨[], ⟨0, 0, 0⟩, []⟩

def visitNode (c : Cache) : Cache :=
  { c with stats := { c.stats with nodesVisited := c.stats.nodesVisited + 1 } }

def hit (c : Cache) : Cache :=
  { c with stats := { c.stats with cacheHits := c.stats.cacheHits + 1 } }

def learn (c : Cache) (a : AttributeId) (answer : Answer) : Cache where
  answers := (a, answer) :: c.answers
  stats := { c.stats with resolverCalls := c.stats.resolverCalls + 1 }
  calls := c.calls ++ [a]

/-- The request's binding first, then the cached answer, then the resolver's. -/
def lookup (c : Cache) (ctx : Context) (a : AttributeId) : Except Reason AttributeValue × Cache :=
  match ctx.request.get? a with
  | some v => (Answer.check a v, c)
  | none =>
    match c.answers.lookup a with
    | some answer => (answer.value a, c.hit)
    | none =>
      let answer := Answer.ofResolver (ctx.resolver ctx.request c.calls a)
      (answer.value a, c.learn a answer)

end Cache

end AccessControl
