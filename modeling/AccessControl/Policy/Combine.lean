import AccessControl.Decision
import AccessControl.Policy.Basic

namespace AccessControl

structure Outcome where
  decision : Decision
  obligations : List Obligation

namespace Outcome

def notApplicable : Outcome := ⟨.notApplicable, []⟩

def indeterminate (x : Extent) (r : Reason) : Outcome := ⟨.indeterminate x r, []⟩

def leaning? (x : Extent) (o : Outcome) : Option Reason :=
  match o.decision with
  | .indeterminate y r => if x = y then some r else none
  | _ => none

def decides (e : Effect) (o : Outcome) : Bool := o.decision.effect? == some e

def obligationsFor (e : Effect) (os : List Outcome) : List Obligation :=
  (os.filter (decides e)).flatMap obligations

end Outcome

namespace Algorithm

/-- The children behind one with this decision stay unevaluated. -/
def settles : Algorithm → Decision → Bool
  | denyOverrides, d => d.effect? == some .deny
  | permitOverrides, d => d.effect? == some .permit
  | firstApplicable, d => d.isApplicable
  | onlyOneApplicable, _ => false
  | denyUnlessPermit, d => d.effect? == some .permit
  | permitUnlessDeny, d => d.effect? == some .deny

/-- The winner decides wherever it occurs. Failures that could have been the winner block the loser,
and become a failure of both effects where the loser occurs or could have occurred. -/
def overrides (winner : Effect) (os : List Outcome) : Outcome :=
  let loser := winner.opposite
  match os.find? (Outcome.decides winner) with
  | some o => o
  | none =>
    match os.findSome? (Outcome.leaning? .permitOrDeny) with
    | some r => .indeterminate .permitOrDeny r
    | none =>
      match os.findSome? (Outcome.leaning? (.ofEffect winner)),
          os.findSome? (Outcome.leaning? (.ofEffect loser)) with
      | some r, leaning =>
        if os.any (Outcome.decides loser) || leaning.isSome then .indeterminate .permitOrDeny r
        else .indeterminate (.ofEffect winner) r
      | none, leaning =>
        if os.any (Outcome.decides loser) then ⟨.ofEffect loser, Outcome.obligationsFor loser os⟩
        else
          match leaning with
          | some r => .indeterminate (.ofEffect loser) r
          | none => .notApplicable

def first (os : List Outcome) : Outcome :=
  (os.find? fun o => o.decision.isApplicable).getD .notApplicable

def onlyOne (id : String) (os : List Outcome) : Outcome :=
  match os.filter fun o => o.decision.isApplicable with
  | [] => .notApplicable
  | [o] => o
  | applicable =>
    match Extent.unionAll (applicable.filterMap fun o => o.decision.extent?) with
    | some x => .indeterminate x (.multipleApplicable id)
    | none => .notApplicable

/-- The winner decides wherever it occurs and otherwise the other effect, failures or not. -/
def otherwise (winner : Effect) (os : List Outcome) : Outcome :=
  match os.find? (Outcome.decides winner) with
  | some o => ⟨.ofEffect winner, o.obligations⟩
  | none => ⟨.ofEffect winner.opposite, Outcome.obligationsFor winner.opposite os⟩

def reduce : Algorithm → String → List Outcome → Outcome
  | denyOverrides, _, os => overrides .deny os
  | permitOverrides, _, os => overrides .permit os
  | firstApplicable, _, os => first os
  | onlyOneApplicable, id, os => onlyOne id os
  | denyUnlessPermit, _, os => otherwise .permit os
  | permitUnlessDeny, _, os => otherwise .deny os

def pulled (a : Algorithm) : List Outcome → List Outcome
  | [] => []
  | o :: os => if a.settles o.decision then [o] else o :: pulled a os

def combine (a : Algorithm) (id : String) (os : List Outcome) : Outcome := a.reduce id (a.pulled os)

end Algorithm

end AccessControl
