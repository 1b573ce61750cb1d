import AccessControl.Value.Basic
import Std.Data.HashSet.Basic

namespace AccessControl

structure Bag where
  values : List Value
  ordered : Bool

namespace Bag

def ofList (values : List Value) : Bag := ⟨values, false⟩

def size (b : Bag) : Nat := b.values.length

def isEmpty (b : Bag) : Bool := b.values.isEmpty

def contains (b : Bag) (v : Value) : Bool := b.values.any fun w => w == v

def isSubsetOf (a b : Bag) : Bool := a.values.all b.contains

def intersects (a b : Bag) : Bool := a.values.any b.contains

def elementType? (b : Bag) : Option ValueType := b.values.head?.map Value.valueType

def isHomogeneous (b : Bag) : Bool :=
  match b.elementType? with
  | some t => b.values.all fun v => v.valueType == t
  | none => true

def occurrences (b : Bag) (v : Value) : Nat := b.values.countP fun w => w == v

/-- Two ordered bags are compared value by value, all others by how often each value occurs. -/
def same (a b : Bag) : Bool :=
  if a.size != b.size then false
  else if a.ordered && b.ordered then a.values == b.values
  else a.values.all fun v => a.occurrences v == b.occurrences v

instance : BEq Bag := ⟨same⟩

def distinct (b : Bag) : Nat := (b.values.foldl (fun s v => s.insert v) (∅ : Std.HashSet Value)).size

def typeClash? (a b : Bag) : Option (ValueType × ValueType) :=
  match a.elementType?, b.elementType? with
  | some x, some y => if x = y then none else some (x, y)
  | _, _ => none

def text (b : Bag) : String := "[" ++ ", ".intercalate (b.values.map Value.text) ++ "]"

end Bag

inductive AttributeValue where
  | simple (v : Value)
  | bag (b : Bag)

namespace AttributeValue

def same : AttributeValue → AttributeValue → Bool
  | simple a, simple b => a == b
  | bag a, bag b => a == b
  | _, _ => false

instance : BEq AttributeValue := ⟨same⟩

def ofBool (b : Bool) : AttributeValue := simple (.boolean b)

/-- The value has the attribute's type and multiplicity. An empty bag has every type. -/
def conformsTo (v : AttributeValue) (a : AttributeId) : Bool :=
  match v, a.multiplicity with
  | simple v, .single => v.valueType == a.valueType
  | bag b, .bag => b.values.all fun v => v.valueType == a.valueType
  | _, _ => false

def describe : AttributeValue → String
  | simple v => v.valueType.text ++ " " ++ v.text
  | bag b =>
    match b.elementType? with
    | some t => "bag of " ++ toString b.size ++ " " ++ t.text
    | none => "empty bag"

def text : AttributeValue → String
  | simple v => v.text
  | bag b => b.text

end AttributeValue

end AccessControl
