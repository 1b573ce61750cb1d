import AccessControl.Value.Bag

namespace AccessControl

inductive CompareOp where
  | eq
  | ne
  | lt
  | le
  | gt
  | ge
  | isIn
deriving DecidableEq

namespace CompareOp

def all : List CompareOp := [eq, ne, lt, le, gt, ge, isIn]

def symbol : CompareOp → String
  | eq => "=="
  | ne => "!="
  | lt => "<"
  | le => "<="
  | gt => ">"
  | ge => ">="
  | isIn => "in"

def name : CompareOp → String
  | eq => "eq"
  | ne => "ne"
  | lt => "lt"
  | le => "le"
  | gt => "gt"
  | ge => "ge"
  | isIn => "in"

def ofName? (s : String) : Option CompareOp := all.find? fun op => op.name == s

end CompareOp

inductive Function where
  | add
  | subtract
  | multiply
  | divide
  | startsWith
  | endsWith
  | glob
  | size
  | intersects
  | isPresent
deriving DecidableEq

namespace Function

def all : List Function :=
  [add, subtract, multiply, divide, startsWith, endsWith, glob, size, intersects, isPresent]

def name : Function → String
  | add => "add"
  | subtract => "subtract"
  | multiply => "multiply"
  | divide => "divide"
  | startsWith => "starts_with"
  | endsWith => "ends_with"
  | glob => "glob"
  | size => "size"
  | intersects => "intersects"
  | isPresent => "is_present"

def ofName? (s : String) : Option Function := all.find? fun f => f.name == s

def arity : Function → Nat
  | size => 1
  | isPresent => 1
  | _ => 2

end Function

inductive Expression where
  | literal (v : AttributeValue)
  | ref (a : AttributeId)
  | compare (op : CompareOp) (left right : Expression)
  | and (operands : List Expression)
  | or (operands : List Expression)
  | not (operand : Expression)
  | call (function : Function) (args : List Expression)

namespace Expression

mutual

def attributes : Expression → List AttributeId
  | literal _ => []
  | ref a => [a]
  | compare _ l r => l.attributes ++ r.attributes
  | and es => attributesOf es
  | or es => attributesOf es
  | not e => e.attributes
  | call _ es => attributesOf es

def attributesOf : List Expression → List AttributeId
  | [] => []
  | e :: es => e.attributes ++ attributesOf es

end

def joined (separator empty : String) (operands : List String) : String :=
  if operands.isEmpty then empty else "(" ++ separator.intercalate operands ++ ")"

mutual

def text : Expression → String
  | literal v => v.text
  | ref a => a.text
  | compare op l r => l.text ++ " " ++ op.symbol ++ " " ++ r.text
  | and es => joined " and " "true" (texts es)
  | or es => joined " or " "false" (texts es)
  | not e => "not (" ++ e.text ++ ")"
  | call f es => f.name ++ "(" ++ ", ".intercalate (texts es) ++ ")"

def texts : List Expression → List String
  | [] => []
  | e :: es => e.text :: texts es

end

end Expression

end AccessControl
