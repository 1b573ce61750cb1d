import AccessControl.PolicyError

namespace AccessControl

structure Catalog where
  declared : List AttributeId

namespace Catalog

def get? (c : Catalog) (category : Category) (name : String) : Option AttributeId :=
  c.declared.find? fun a => a.category == category && a.name == name

def contains (c : Catalog) (a : AttributeId) : Bool := c.get? a.category a.name == some a

def size (c : Catalog) : Nat := c.declared.length

def place (a : AttributeId) : List AttributeId → List AttributeId
  | [] => [a]
  | b :: bs => if a.before b then a :: b :: bs else b :: place a bs

/-- The answer to a declaration, and the catalog that it leaves. -/
def declare (a : AttributeId) (c : Catalog) : Except PolicyError Unit × Catalog :=
  match c.get? a.category a.name with
  | some existing =>
    if existing = a then (.ok (), c) else (.error (.conflictingDeclaration existing a), c)
  | none => (.ok (), ⟨place a c.declared⟩)

def insert (c : Catalog) (a : AttributeId) : Except PolicyError Catalog :=
  match c.declare a with
  | (.error e, _) => .error e
  | (.ok (), c) => .ok c

def initial : Catalog := ⟨AttributeId.builtins.foldr place []⟩

def insertAll (c : Catalog) : List AttributeId → Except PolicyError Catalog
  | [] => .ok c
  | a :: as =>
    match c.insert a with
    | .error e => .error e
    | .ok c => c.insertAll as

def ofList (declarations : List AttributeId) : Except PolicyError Catalog := initial.insertAll declarations

end Catalog

end AccessControl
