namespace AccessControl

inductive Category where
  | subject
  | resource
  | action
  | environment
deriving DecidableEq

namespace Category

def all : List Category := [subject, resource, action, environment]

def name : Category → String
  | subject => "subject"
  | resource => "resource"
  | action => "action"
  | environment => "environment"

def ofName? (s : String) : Option Category := all.find? fun c => c.name == s

def rank : Category → Nat
  | subject => 0
  | resource => 1
  | action => 2
  | environment => 3

end Category

inductive ValueType where
  | boolean
  | string
  | integer
  | double
  | dateTime
deriving DecidableEq

namespace ValueType

def all : List ValueType := [boolean, string, integer, double, dateTime]

def text : ValueType → String
  | boolean => "boolean"
  | string => "string"
  | integer => "integer"
  | double => "double"
  | dateTime => "date-time"

def name : ValueType → String
  | boolean => "boolean"
  | string => "string"
  | integer => "integer"
  | double => "double"
  | dateTime => "date_time"

def ofName? (s : String) : Option ValueType := all.find? fun t => t.name == s

end ValueType

inductive Multiplicity where
  | single
  | bag
deriving DecidableEq

namespace Multiplicity

def all : List Multiplicity := [single, bag]

def text : Multiplicity → String
  | single => "Single"
  | bag => "Bag"

def name : Multiplicity → String
  | single => "single"
  | bag => "bag"

def ofName? (s : String) : Option Multiplicity := all.find? fun m => m.name == s

end Multiplicity

structure AttributeId where
  category : Category
  name : String
  valueType : ValueType
  multiplicity : Multiplicity
deriving DecidableEq

namespace AttributeId

def subjectId : AttributeId := ⟨.subject, "id", .string, .single⟩

def actionId : AttributeId := ⟨.action, "id", .string, .single⟩

def resourceId : AttributeId := ⟨.resource, "id", .string, .single⟩

def currentDateTime : AttributeId := ⟨.environment, "current_date_time", .dateTime, .single⟩

/-- The attributes that every catalog declares and only a request itself binds. -/
def builtins : List AttributeId := [subjectId, actionId, resourceId, currentDateTime]

def isBuiltin (a : AttributeId) : Bool := builtins.contains a

def text (a : AttributeId) : String := a.category.name ++ "." ++ a.name

def shape (a : AttributeId) : String := a.multiplicity.text ++ " " ++ a.valueType.text

def before (a b : AttributeId) : Bool :=
  a.category.rank < b.category.rank || (a.category == b.category && a.name < b.name)

end AttributeId

end AccessControl
