import AccessControl.Expression.Operators
import AccessControl.Resolver

namespace AccessControl.Expression

mutual

def value (ctx : Context) : Expression → Cache → Except Reason AttributeValue × Cache
  | literal v, c => (.ok v, c)
  | ref a, c => c.lookup ctx a
  | compare op l r, c =>
    match l.value ctx c with
    | (.error e, c) => (.error e, c)
    | (.ok a, c) =>
      match r.value ctx c with
      | (.error e, c) => (.error e, c)
      | (.ok b, c) => ((op.apply a b).map .ofBool, c)
  | and es, c =>
    match connective ctx false es c with
    | (b, c) => (b.map .ofBool, c)
  | or es, c =>
    match connective ctx true es c with
    | (b, c) => (b.map .ofBool, c)
  | not e, c =>
    match e.value ctx c with
    | (v, c) => ((v.bind AttributeValue.truth).map fun b => .ofBool !b, c)
  | call f es, c =>
    if f = .isPresent then
      match es with
      | [ref a] =>
        match c.lookup ctx a with
        | (.ok _, c) => (.ok (.ofBool true), c)
        | (.error (.missingAttribute _), c) => (.ok (.ofBool false), c)
        | (.error (.resolverFailure _ _), c) => (.ok (.ofBool false), c)
        | (.error e, c) => (.error e, c)
      | _ => (.error (.typeMismatch "is_present expects a single attribute reference"), c)
    else
      match values ctx es c with
      | (.error e, c) => (.error e, c)
      | (.ok vs, c) => (f.apply vs, c)

/-- An operand equal to `settling` settles the connective. Otherwise its first failure stands, and
without one it is the opposite. -/
def connective (ctx : Context) (settling : Bool) : List Expression → Cache → Except Reason Bool × Cache
  | [], c => (.ok !settling, c)
  | e :: es, c =>
    match e.value ctx c with
    | (v, c) =>
      match v.bind AttributeValue.truth with
      | .ok b => if b = settling then (.ok settling, c) else connective ctx settling es c
      | .error r =>
        match connective ctx settling es c with
        | (.ok b, c) => if b = settling then (.ok settling, c) else (.error r, c)
        | (.error _, c) => (.error r, c)

def values (ctx : Context) : List Expression → Cache → Except Reason (List AttributeValue) × Cache
  | [], c => (.ok [], c)
  | e :: es, c =>
    match e.value ctx c with
    | (.error r, c) => (.error r, c)
    | (.ok v, c) =>
      match values ctx es c with
      | (.error r, c) => (.error r, c)
      | (.ok vs, c) => (.ok (v :: vs), c)

end

def holds (ctx : Context) (e : Expression) (c : Cache) : Except Reason Bool × Cache :=
  match e.value ctx c with
  | (v, c) => (v.bind AttributeValue.truth, c)

end AccessControl.Expression
