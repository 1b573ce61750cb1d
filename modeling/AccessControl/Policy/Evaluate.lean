import AccessControl.Expression.Evaluate
import AccessControl.Policy.Combine

namespace AccessControl

def holdsIfPresent (ctx : Context) : Option Expression → Cache → Except Reason Bool × Cache
  | none, c => (.ok true, c)
  | some e, c => e.holds ctx c

def Rule.evaluate (ctx : Context) (r : Rule) (c : Cache) : Outcome × Cache :=
  match holdsIfPresent ctx r.target c with
  | (.error e, c) => (.indeterminate (.ofEffect r.effect) e, c)
  | (.ok false, c) => (.notApplicable, c)
  | (.ok true, c) =>
    match holdsIfPresent ctx r.condition c with
    | (.error e, c) => (.indeterminate (.ofEffect r.effect) e, c)
    | (.ok false, c) => (.notApplicable, c)
    | (.ok true, c) => (⟨.ofEffect r.effect, Obligation.forEffect r.obligations r.effect⟩, c)

def SetHeader.addObligations (h : SetHeader) (o : Outcome) : Outcome :=
  match o.decision.effect? with
  | some e => { o with obligations := o.obligations ++ Obligation.forEffect h.obligations e }
  | none => o

namespace Policy

/-- A set whose target fails could have had the effects of its tree. -/
def targetFailure (p : Policy) (r : Reason) : Outcome :=
  match p.possibleEffects with
  | some x => .indeterminate x r
  | none => .notApplicable

mutual

def evaluate (ctx : Context) : Policy → Cache → Outcome × Cache
  | rule r, c => r.evaluate ctx c.visitNode
  | set h cs, c =>
    match holdsIfPresent ctx h.target c.visitNode with
    | (.error e, c) => (targetFailure (set h cs) e, c)
    | (.ok false, c) => (.notApplicable, c)
    | (.ok true, c) =>
      match evaluateChildren ctx h.algorithm cs c with
      | (os, c) => (h.addObligations (h.algorithm.reduce h.id os), c)

def evaluateChildren (ctx : Context) (a : Algorithm) : List Policy → Cache → List Outcome × Cache
  | [], c => ([], c)
  | p :: ps, c =>
    match p.evaluate ctx c with
    | (o, c) =>
      if a.settles o.decision then ([o], c)
      else
        match evaluateChildren ctx a ps c with
        | (os, c) => (o :: os, c)

end

end Policy

end AccessControl
