namespace AccessControl

inductive Reason where
  | missingAttribute (name : String)
  | resolverFailure (name message : String)
  | typeMismatch (detail : String)
  | bagTruthiness (detail : String)
  | arithmetic (detail : String)
  | multipleApplicable (policy : String)
  | obligationFailed (obligation : String) (cause : Reason)
deriving DecidableEq

namespace Reason

def message : Reason → String
  | missingAttribute a => "attribute '" ++ a ++ "' is missing"
  | resolverFailure a m => "resolving '" ++ a ++ "' failed: " ++ m
  | typeMismatch d => "type mismatch: " ++ d
  | bagTruthiness d => "non-empty bag used as a boolean: " ++ d
  | arithmetic d => "arithmetic error: " ++ d
  | multipleApplicable p => "more than one child of '" ++ p ++ "' is applicable"
  | obligationFailed o cause => "obligation '" ++ o ++ "' could not be fulfilled: " ++ cause.message

def isPolicyAmbiguity : Reason → Bool
  | multipleApplicable _ => true
  | _ => false

end Reason

end AccessControl
