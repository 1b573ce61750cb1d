import AccessControl.Expression.Basic
import AccessControl.Expression.Glob
import AccessControl.Reason

namespace AccessControl

namespace AttributeValue

/-- An empty bag is false; other bags and values that are not boolean have no truth. -/
def truth : AttributeValue → Except Reason Bool
  | simple (.boolean b) => .ok b
  | simple v => .error (.typeMismatch ("expected boolean, found " ++ v.valueType.text))
  | bag b => if b.isEmpty then .ok false else .error (.bagTruthiness (bag b).describe)

def equal : AttributeValue → AttributeValue → Except Reason Bool
  | simple a, simple b =>
    if a.valueType = b.valueType then .ok (a == b)
    else .error (.typeMismatch ("cannot compare " ++ a.valueType.text ++ " with " ++ b.valueType.text))
  | bag a, bag b =>
    match a.typeClash? b with
    | some (x, y) => .error (.typeMismatch ("cannot compare bag of " ++ x.text ++ " with bag of " ++ y.text))
    | none => .ok (a == b)
  | a, b =>
    .error (.typeMismatch
      ("cannot compare " ++ a.describe ++ " with " ++ b.describe ++ "; use `in` for membership"))

def contained (needle haystack : AttributeValue) : Except Reason Bool :=
  match needle, haystack with
  | simple v, bag b =>
    match b.elementType? with
    | some t =>
      if t = v.valueType then .ok (b.contains v)
      else .error (.typeMismatch ("cannot look for " ++ v.valueType.text ++ " in bag of " ++ t.text))
    | none => .ok (b.contains v)
  | bag a, bag b =>
    match a.typeClash? b with
    | some (x, y) => .error (.typeMismatch ("cannot look for bag of " ++ x.text ++ " in bag of " ++ y.text))
    | none => .ok (a.isSubsetOf b)
  | _, simple v =>
    .error (.typeMismatch ("`in` expects a bag on the right, found " ++ (simple v).describe))

def ordered (op : CompareOp) (holds : Ordering → Bool) (left right : AttributeValue) : Except Reason Bool :=
  let refused : Except Reason Bool :=
    .error (.typeMismatch ("cannot order " ++ left.describe ++ " " ++ op.symbol ++ " " ++ right.describe))
  match left, right with
  | simple a, simple b =>
    match a.compare b with
    | some o => .ok (holds o)
    | none => refused
  | _, _ => refused

end AttributeValue

def CompareOp.apply (op : CompareOp) (left right : AttributeValue) : Except Reason Bool :=
  match op with
  | eq => left.equal right
  | ne => (left.equal right).map (!·)
  | isIn => left.contained right
  | lt => left.ordered op Ordering.isLT right
  | le => left.ordered op Ordering.isLE right
  | gt => left.ordered op Ordering.isGT right
  | ge => left.ordered op Ordering.isGE right

namespace Arithmetic

def fit (n : Int) : Option Int64 :=
  if Int64.minValue.toInt ≤ n ∧ n ≤ Int64.maxValue.toInt then some (Int64.ofInt n) else none

def finite (d : Double) : Option Double := if d.isFinite then some d else none

/-- An operation on integers and one on doubles; both have no result where it would not be exact or
not be finite. -/
structure Operation where
  symbol : String
  integer : Int64 → Int64 → Option Int64
  double : Double → Double → Option Double

def add : Operation := ⟨"+", fun a b => fit (a.toInt + b.toInt), fun a b => finite (a.add b)⟩

def subtract : Operation := ⟨"-", fun a b => fit (a.toInt - b.toInt), fun a b => finite (a.sub b)⟩

def multiply : Operation := ⟨"*", fun a b => fit (a.toInt * b.toInt), fun a b => finite (a.mul b)⟩

def divide : Operation :=
  ⟨"/", fun a b => if b.toInt = 0 then none else fit (a.toInt.tdiv b.toInt),
    fun a b => if b.isZero then none else finite (a.div b)⟩

def Operation.apply (o : Operation) (a b : Value) : Except Reason AttributeValue :=
  let checked (r : Option Value) : Except Reason AttributeValue :=
    match r with
    | some v => .ok (.simple v)
    | none =>
      .error (.arithmetic (a.text ++ " " ++ o.symbol ++ " " ++ b.text ++ " overflows or divides by zero"))
  match a, b with
  | .integer x, .integer y => checked ((o.integer x y).map .integer)
  | .double x, .double y => checked ((o.double x y).map .double)
  | _, _ =>
    .error (.typeMismatch
      ("cannot compute " ++ a.valueType.text ++ " " ++ o.symbol ++ " " ++ b.valueType.text))

end Arithmetic

open AttributeValue in
def Function.apply (f : Function) (args : List AttributeValue) : Except Reason AttributeValue :=
  match f, args with
  | add, [simple a, simple b] => Arithmetic.add.apply a b
  | subtract, [simple a, simple b] => Arithmetic.subtract.apply a b
  | multiply, [simple a, simple b] => Arithmetic.multiply.apply a b
  | divide, [simple a, simple b] => Arithmetic.divide.apply a b
  | startsWith, [simple (.string s), simple (.string part)] => .ok (ofBool (part.toList.isPrefixOf s.toList))
  | endsWith, [simple (.string s), simple (.string part)] => .ok (ofBool (part.toList.isSuffixOf s.toList))
  | glob, [simple (.string s), simple (.string pattern)] => .ok (ofBool (Glob.accepts pattern s))
  | size, [bag b] => .ok (simple (.integer (Int64.ofNat b.size)))
  | intersects, [bag a, bag b] =>
    match a.typeClash? b with
    | some (x, y) =>
      .error (.typeMismatch ("cannot intersect bag of " ++ x.text ++ " with bag of " ++ y.text))
    | none => .ok (ofBool (a.intersects b))
  | _, _ =>
    .error (.typeMismatch
      (f.name ++ " cannot be applied to (" ++ ", ".intercalate (args.map describe) ++ ")"))

end AccessControl
