import AccessControl.Configuration.Layer
import AccessControl.Double.Reader
import AccessControl.Text.Case

namespace AccessControl

abbrev Environment := List (String × String)

namespace Environment

open Text

/-- The name without the program's name in front. Case does not matter. -/
def settingName (program name : String) : Option String :=
  let front := (lower (program ++ "_")).toList
  let cs := (lower name).toList
  if front.isPrefixOf cs then some (String.ofList (cs.drop front.length)) else none

def pointed : List Char → List Char
  | '_' :: '_' :: cs => '.' :: pointed cs
  | c :: cs => c :: pointed cs
  | [] => []

def readInteger (cs : List Char) : Option Int := do
  let (negative, digits) :=
    match cs with
    | '-' :: rest => (true, rest)
    | '+' :: rest => (false, rest)
    | rest => (false, rest)
  let (n, []) ← natural digits | none
  let i : Int := if negative then -(n : Int) else n
  if Int64.minValue.toInt ≤ i ∧ i ≤ Int64.maxValue.toInt then some i else none

/-- The value that a text stands for: a truth value, a number, or else the text itself. -/
def readSetting (s : String) : Toml :=
  if s.toLower = "true" then .boolean true
  else if s.toLower = "false" then .boolean false
  else
    match readInteger s.toList, Double.read s.toList with
    | some i, _ => .integer i
    | none, some d => .double d
    | none, none => .string s

def layer (program : String) (env : Environment) : Layer :=
  env.filterMap fun (name, value) =>
    (settingName program name).map fun key => (String.ofList (pointed key.toList), readSetting value)

def get? (name : String) (env : Environment) : Option String := env.lookup name

end Environment

end AccessControl
