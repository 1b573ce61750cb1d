import AccessControl.CommandLine.Arguments

namespace AccessControl.CommandLine

inductive Command where
  | init
  | validate (policy : Option String)
  | evaluate (policy request : String) (stats : Bool)
  | demo
  | showConfiguration (format : String)
  | validateConfiguration

structure Invocation where
  project : String
  verbosity : Nat
  command : Command

def everywhere : List Switch := [⟨"project", some 'p', .valued⟩, ⟨"verbose", some 'v', .counted⟩]

def configCommands : List Grammar :=
  [⟨"show", ⟨"format", some 'f', .valued⟩ :: everywhere, 0, 0, []⟩, ⟨"validate", everywhere, 0, 0, []⟩]

def grammar : Grammar :=
  ⟨"tenet", everywhere, 0, 0,
    [⟨"init", everywhere, 0, 0, []⟩, ⟨"validate", everywhere, 0, 1, []⟩,
      ⟨"evaluate", ⟨"stats", none, .flag⟩ :: everywhere, 2, 2, []⟩, ⟨"demo", everywhere, 0, 0, []⟩,
      ⟨"config", everywhere, 0, 0, configCommands⟩]⟩

namespace Command

def ofGiven? (given : Given) (outer : List String) : Option Command :=
  match outer, given.name, given.operands with
  | [_], "init", _ => some init
  | [_], "validate", operands => some (validate operands.head?)
  | [_], "evaluate", [policy, request] => some (evaluate policy request (given.has "stats"))
  | [_], "demo", _ => some demo
  | ["config", _], "show", _ => some (showConfiguration ((given.value? "format").getD "text"))
  | ["config", _], "validate", _ => some validateConfiguration
  | _, _, _ => none

end Command

/-- Of a switch that stands at several levels the innermost level counts. -/
def Invocation.ofGiven? : List Given → Option Invocation
  | [] => none
  | g :: outer => do
    let all := g :: outer
    let command ← Command.ofGiven? g (outer.map Given.name)
    some
      { project := (all.findSome? fun g => g.value? "project").getD "."
        verbosity := ((all.find? fun g => g.has "verbose").map fun g => g.count "verbose").getD 0
        command := command }

def Invocation.read (args : List String) : Except Stop Invocation :=
  match grammar.read args with
  | .error stop => .error stop
  | .ok given =>
    match ofGiven? given with
    | some i => .ok i
    | none => .error .refused

end AccessControl.CommandLine
