import AccessControl.Configuration.Load
import AccessControl.Files.Basic

namespace AccessControl.Project

variable {m : Type → Type} [Monad m] [Files m]

def configFile (directory : String) : String := Path.join directory "tenet.toml"

def machineFile (directory : String) : String := Path.join directory "tenet.local.toml"

def filled? (env : Environment) (name : String) : Option String :=
  (env.get? name).filter fun v => !v.isEmpty

/-- The user's file lies in the directory for configuration, which must be absolute to count, or
else below the home directory. -/
def userFile? (env : Environment) : Option String :=
  let base :=
    match (filled? env "XDG_CONFIG_HOME").filter Path.isAbsolute with
    | some directory => some directory
    | none => (filled? env "HOME").map fun home => Path.join home ".config"
  base.map fun directory => Path.join (Path.join directory "tenet") "config.toml"

/-- The text of a configuration file. Where a directory has its name, the name with `.toml` behind
it is tried. -/
def readSettings (path : String) : m (Option String) := do
  match ← Files.read path with
  | some text => pure (some text)
  | none => if ← Files.found path then Files.read (path ++ ".toml") else pure none

def sources (directory : String) (userFile : Option String) (program : String) (env : Environment) :
    m Configuration.Sources := do
  let user ←
    match userFile with
    | some path => readSettings path
    | none => pure none
  let project ← readSettings (configFile directory)
  let machine ← readSettings (machineFile directory)
  pure ⟨user, project, machine, program, env⟩

def load (directory : String) (env : Environment) : m (Except LoadError Configuration) := do
  let s ← sources directory (userFile? env) "TENET" env
  pure (Configuration.load s directory)

def isInitialized (directory : String) : m Bool := do
  pure (← Files.read (configFile directory)).isSome

inductive WriteError where
  | exists (path : String)
  | failed (path : String)

def WriteError.message : WriteError → String
  | .exists path => "Config file already exists at " ++ path
  | .failed path => "Failed to write config file at " ++ path

/-- Writes the default configuration and gives its path. An existing file is left alone. -/
def writeDefault (directory : String) : m (Except WriteError String) := do
  let path := configFile directory
  if ← Files.found path then pure (.error (.exists path))
  else if ← Files.write path Configuration.default.text then pure (.ok path)
  else pure (.error (.failed path))

end AccessControl.Project
