import AccessControl.DecisionPoint
import AccessControl.Path

namespace AccessControl

structure Configuration where
  options : Options
  policyPath : String
  logLevel : String
deriving DecidableEq

inductive ConfigurationError where
  | depthIsZero
  | unknownLevel (level : String)
deriving DecidableEq

namespace Configuration

def default : Configuration := ⟨.default, "policy.json", "info"⟩

def logLevels : List String := ["off", "error", "warn", "info", "debug", "trace"]

def isLogLevel (level : String) : Bool := logLevels.contains level.toLower

def validate (c : Configuration) : Except ConfigurationError Unit :=
  if c.options.maxDepth = 0 then .error .depthIsZero
  else if isLogLevel c.logLevel then .ok ()
  else .error (.unknownLevel c.logLevel)

def resolve (c : Configuration) (directory : String) : Configuration :=
  { c with policyPath := Path.join directory c.policyPath }

end Configuration

def ConfigurationError.message : ConfigurationError → String
  | depthIsZero => "Invalid configuration: pdp.max_depth must be at least 1"
  | unknownLevel level =>
    "Invalid configuration: logging.level '" ++ level ++ "' is not one of " ++
      ", ".intercalate Configuration.logLevels

end AccessControl
