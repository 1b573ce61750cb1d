import AccessControl.Expression.Basic

namespace AccessControl

inductive PolicyError where
  | undeclaredAttribute (node : String) (reference : AttributeId)
  | attributeMismatch (node : String) (declared reference : AttributeId)
  | arity (node : String) (function : Function) (found : Nat)
  | isPresentArgument (node : String)
  | duplicateId (parent id : String)
  | emptyId (parent : String)
  | obligationEffect (rule obligation : String)
  | tooDeep (max : Nat)
  | heterogeneousBag (node : String)
  | conflictingDeclaration (existing requested : AttributeId)
deriving DecidableEq

namespace PolicyError

def message : PolicyError → String
  | undeclaredAttribute node a => node ++ ": attribute '" ++ a.text ++ "' is not declared"
  | attributeMismatch node declared a =>
    node ++ ": attribute '" ++ a.text ++ "' is declared as " ++ declared.shape ++
      " but referenced as " ++ a.shape
  | arity node f found =>
    node ++ ": " ++ f.name ++ " takes " ++ toString f.arity ++ " argument(s), found " ++ toString found
  | isPresentArgument node => node ++ ": is_present expects an attribute reference"
  | duplicateId parent id => parent ++ ": duplicate child id '" ++ id ++ "'"
  | emptyId parent => parent ++ ": empty id"
  | obligationEffect rule o => rule ++ ": obligation '" ++ o ++ "' can never match the rule's effect"
  | tooDeep max => "policy tree depth exceeds " ++ toString max
  | heterogeneousBag node => node ++ ": literal bag mixes value types"
  | conflictingDeclaration existing requested =>
    "attribute '" ++ requested.text ++ "' already declared as " ++ existing.shape ++
      ", cannot redeclare as " ++ requested.shape

end PolicyError

end AccessControl
