import AccessControl.CommandLine.Command
import AccessControl.Document.Request
import AccessControl.Document.Response
import AccessControl.DocumentService
import AccessControl.Project

namespace AccessControl.CommandLine

variable {m : Type → Type} [Monad m] [Files m]

structure Output where
  status : Nat
  stdout : String
  stderr : List String

def versionNumber : String := "0.1.0"

def printed (lines : List String) : String := String.join (lines.map fun l => l ++ "\n")

def usage : String :=
  printed
    ["Usage: tenet [-p|--project DIR] [-v|--verbose]... COMMAND", "", "Commands:", "  init",
      "  validate [POLICY]", "  evaluate POLICY REQUEST [--stats]", "  demo",
      "  config show [-f|--format text|json|toml]", "  config validate"]

def success (lines : List String) : Output := ⟨0, printed lines, []⟩

def failure (message : String) : Output := ⟨1, "", ["Error: " ++ message]⟩

abbrev Attempt := Except String Output

def Attempt.output : Attempt → Output
  | .ok o => o
  | .error message => failure message

def context (message : String) : Except ε α → Except String α
  | .ok a => .ok a
  | .error _ => .error message

def document (message : String) (read : String → Option α) (text : Option String) : Except String α :=
  match text.bind read with
  | some a => .ok a
  | none => .error message

def init (project : String) : m Output := do
  if ← Project.isInitialized project then
    return failure ("Project already initialized in " ++ project ++ ". tenet.toml already exists.")
  if !(← Files.makeDirectory project) then return failure "Failed to create project directory"
  match ← Project.writeDefault project with
  | .error e => return failure e.message
  | .ok config =>
    let wrote := ["Wrote " ++ config]
    let policy := Path.join project Configuration.default.policyPath
    let next := ["", "Next steps:", "  tenet validate " ++ policy, "  tenet demo"]
    if ← Files.found policy then return success (wrote ++ ["Kept existing " ++ policy] ++ next)
    else if ← Files.write policy DocumentService.document.text then
      return success (wrote ++ ["Wrote " ++ policy] ++ next)
    else return { failure ("Failed to write " ++ policy) with stdout := printed wrote }

def validate (c : Configuration) (policy : Option String) : m Output := do
  let path := policy.getD c.policyPath
  let text ← Files.read path
  pure <| Attempt.output do
    let d ← document ("Failed to read policy document " ++ path) PolicyDocument.read text
    let invalid := "Invalid policy in " ++ path
    let catalog ← context invalid d.catalog
    let p ← context invalid (DecisionPoint.load d.policy catalog c.options)
    return success
      [path ++ ": ok", "  Root:       " ++ p.policy.id, "  Nodes:      " ++ toString p.policy.nodeCount,
        "  Depth:      " ++ toString p.policy.depth, "  Attributes: " ++ toString d.attributes.length]

def statsLines (s : Stats) : List String :=
  ["resolver calls: " ++ toString s.resolverCalls, "cache hits:     " ++ toString s.cacheHits,
    "nodes visited:  " ++ toString s.nodesVisited]

/-- The policy's faults are reported after those of the request. -/
def evaluate (c : Configuration) (policy request : String) (stats : Bool) (now : Instant) : m Output := do
  let policyText ← Files.read policy
  let requestText ← Files.read request
  pure <| Attempt.output do
    let d ← document ("Failed to read policy document " ++ policy) PolicyDocument.read policyText
    let catalog ←
      match d.catalog with
      | .ok catalog => .ok catalog
      | .error e => .error e.message
    let asked ← document ("Failed to read request document " ++ request) RequestDocument.read requestText
    let r ← context "Request does not match the policy's attributes" (asked.toRequest catalog now)
    let p ← context "Invalid policy" (DecisionPoint.load d.policy catalog c.options)
    let (response, cache) := p.respond r
    return ⟨0, printed [response.encode.pretty], if stats then statsLines cache.stats else []⟩

def demoLines (p : DecisionPoint) (now : Instant) (number : Nat) (title : String) (assigned : List String) :
    List String :=
  let (response, _) := p.respond (DocumentService.helpdeskRequest "maarten" assigned "tenant4" now)
  let obligation (o : FulfilledObligation) : List String :=
    ("  obligation:       " ++ o.id) :: o.assignments.map fun a => "    " ++ a.name ++ " = " ++ a.value.text
  ["Scenario " ++ toString number ++ ": " ++ title, "  assigned tenants: " ++ ", ".intercalate assigned,
      "  owning tenant:    tenant4", "  decision:         " ++ response.decision.text] ++
    (if response.obligations.isEmpty then ["  obligations:      none"] else []) ++
    response.obligations.flatMap obligation ++ [""]

def demo (c : Configuration) (now : Instant) : Output :=
  match DocumentService.decisionPoint c.options with
  | .error _ => failure "Reference policy failed to load"
  | .ok p =>
    success
      (demoLines p now 1 "helpdesk, not assigned to the owning tenant" ["tenant1", "tenant3"] ++
        demoLines p now 2 "helpdesk, assigned to the owning tenant" ["tenant1", "tenant4"])

def showConfiguration (c : Configuration) (format : String) : Output :=
  if format = "json" then success [c.encode.pretty]
  else if format = "toml" then success [c.text]
  else if format = "text" then
    success
      ["tenet Configuration", "===================", "", "PDP:",
        "  Audit decisions: " ++ toString c.options.auditDecisions,
        "  Max depth: " ++ toString c.options.maxDepth, "", "Policy:", "  Path: " ++ c.policyPath, "",
        "Logging:", "  Level: " ++ c.logLevel]
  else failure ("Unknown format '" ++ format ++ "' (expected text, json or toml)")

def validateConfiguration (project : String) : Except LoadError Configuration → m Output
  | .error _ => pure (failure "Configuration is invalid")
  | .ok c => do
    let first :=
      if ← Project.isInitialized project then "tenet.toml: ok"
      else "No tenet.toml in " ++ project ++ "; using defaults"
    if ← Files.found c.policyPath then return success [first]
    else return success [first, "Warning: policy document " ++ c.policyPath ++ " does not exist"]

def configured (loaded : Except LoadError Configuration) (run : Configuration → m Output) : m Output :=
  match loaded with
  | .ok c => run c
  | .error e => pure (failure e.message)

def Invocation.run (i : Invocation) (env : Environment) (now : Instant) : m Output := do
  let loaded ← Project.load i.project env
  match i.command with
  | .init => init i.project
  | .validate policy => configured loaded fun c => CommandLine.validate c policy
  | .evaluate policy request stats =>
    configured loaded fun c => CommandLine.evaluate c policy request stats now
  | .demo => configured loaded fun c => pure (CommandLine.demo c now)
  | .showConfiguration format =>
    configured loaded fun c => pure (CommandLine.showConfiguration c format)
  | .validateConfiguration => CommandLine.validateConfiguration i.project loaded

def run (args : List String) (env : Environment) (now : Instant) : m Output :=
  match Invocation.read args with
  | .ok i => i.run env now
  | .error (.version names) => pure (success ["-".intercalate names ++ " " ++ versionNumber])
  | .error .help => pure ⟨0, usage, []⟩
  | .error .refused => pure ⟨2, "", []⟩

end AccessControl.CommandLine
