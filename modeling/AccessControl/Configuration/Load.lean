import AccessControl.Configuration.Document
import AccessControl.Configuration.Environment
import AccessControl.Toml.Reader

namespace AccessControl

inductive LoadError where
  | malformed
  | mistyped
  | invalid (cause : ConfigurationError)
deriving DecidableEq

def LoadError.message : LoadError → String
  | malformed => "Failed to build configuration"
  | mistyped => "Failed to deserialize configuration"
  | invalid _ => "Configuration failed validation"

namespace Layer

mutual

def fits : Toml → Bool
  | .integer n => decide (Int64.minValue.toInt ≤ n ∧ n ≤ Int64.maxValue.toInt)
  | .array items => allFit items
  | .table fs => fieldsFit fs
  | _ => true

def allFit : List Toml → Bool
  | [] => true
  | v :: vs => fits v && allFit vs

def fieldsFit : List (String × Toml) → Bool
  | [] => true
  | (_, v) :: fs => fits v && fieldsFit fs

end

def ofText (text : String) : Except LoadError Layer :=
  match Toml.read text with
  | some fields => if fieldsFit fields then .ok fields else .error .malformed
  | none => .error .malformed

def ofFile : Option String → Except LoadError Layer
  | none => .ok []
  | some text => ofText text

end Layer

namespace Configuration

def layer (c : Configuration) : Layer :=
  [("pdp",
      .table
        [("audit_decisions", .boolean c.options.auditDecisions), ("max_depth", .integer c.options.maxDepth)]),
    ("policy", .table [("path", .string c.policyPath)]),
    ("logging", .table [("level", .string c.logLevel)])]

def merged (layers : List Layer) : Toml := Layer.merge (default.layer :: layers)

def ofLayers (layers : List Layer) (directory : String) : Except LoadError Configuration :=
  match read Toml.converting (merged layers) with
  | none => .error .mistyped
  | some c =>
    match c.validate with
    | .error cause => .error (.invalid cause)
    | .ok () => .ok (c.resolve directory)

structure Sources where
  user : Option String
  project : Option String
  machine : Option String
  program : String
  environment : Environment

def Sources.layers (s : Sources) : Except LoadError (List Layer) := do
  let user ← Layer.ofFile s.user
  let project ← Layer.ofFile s.project
  let machine ← Layer.ofFile s.machine
  .ok [user, project, machine, s.environment.layer s.program]

def load (s : Sources) (directory : String) : Except LoadError Configuration := do
  ofLayers (← s.layers) directory

/-- Falls back on the defaults, with the path of the policy as it is. -/
def loadOrDefault (s : Sources) (directory : String) : Configuration :=
  match load s directory with
  | .ok c => c
  | .error _ => default

end Configuration

end AccessControl
