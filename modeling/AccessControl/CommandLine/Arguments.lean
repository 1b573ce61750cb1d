namespace AccessControl.CommandLine

inductive SwitchKind where
  | flag
  | counted
  | valued
deriving DecidableEq

structure Switch where
  long : String
  short : Option Char
  kind : SwitchKind

structure Grammar where
  name : String
  switches : List Switch
  required : Nat
  allowed : Nat
  commands : List Grammar

structure Given where
  name : String
  switches : List (String × String)
  operands : List String

/-- Why reading ended. The names are those of the commands on the way. -/
inductive Stop where
  | version (names : List String)
  | help
  | refused
deriving DecidableEq

namespace Given

def has (g : Given) (long : String) : Bool := g.switches.any fun s => s.1 == long

def value? (g : Given) (long : String) : Option String := g.switches.lookup long

def count (g : Given) (long : String) : Nat := g.switches.countP fun s => s.1 == long

end Given

structure Progress where
  grammar : Grammar
  current : Given
  outer : List Given
  waiting : Option Switch
  operandsOnly : Bool

namespace Progress

def start (g : Grammar) : Progress := ⟨g, ⟨g.name, [], []⟩, [], none, false⟩

def names (p : Progress) : List String := ((p.current :: p.outer).map Given.name).reverse

/-- Only counted switches may be repeated. -/
def give (p : Progress) (s : Switch) (value : String) : Except Stop Progress :=
  if s.kind ≠ .counted ∧ p.current.has s.long then .error .refused
  else
    .ok
      { p with
        current := { p.current with switches := p.current.switches ++ [(s.long, value)] }
        waiting := none }

def operand (p : Progress) (arg : String) : Except Stop Progress :=
  if p.current.operands.length < p.grammar.allowed then
    .ok { p with current := { p.current with operands := p.current.operands ++ [arg] } }
  else .error .refused

def command (p : Progress) (arg : String) : Except Stop Progress :=
  match p.grammar.commands.find? fun g => g.name == arg with
  | some g => .ok { p with grammar := g, current := ⟨g.name, [], []⟩, outer := p.current :: p.outer }
  | none => .error (if arg = "help" then .help else .refused)

/-- A long switch, with the value behind `=` if there is one. -/
def long (p : Progress) (name : String) (value : Option String) : Except Stop Progress :=
  match p.grammar.switches.find? fun s => s.long == name with
  | some s =>
    match s.kind, value with
    | .valued, none => .ok { p with waiting := some s }
    | .valued, some v => p.give s v
    | _, none => p.give s ""
    | _, some _ => .error .refused
  | none =>
    if value.isSome then .error .refused
    else if name = "version" then .error (.version p.names)
    else if name = "help" then .error .help
    else .error .refused

def shorts (p : Progress) : List Char → Except Stop Progress
  | [] => .ok p
  | c :: cs =>
    match p.grammar.switches.find? fun s => s.short == some c with
    | some s =>
      if s.kind = .valued then
        match cs with
        | [] => .ok { p with waiting := some s }
        | '=' :: value => p.give s (String.ofList value)
        | value => p.give s (String.ofList value)
      else
        match p.give s "" with
        | .ok p => p.shorts cs
        | .error stop => .error stop
    | none => .error (if c = 'V' then .version p.names else if c = 'h' then .help else .refused)

def splitValue (cs : List Char) : String × Option String :=
  let name := cs.takeWhile (· ≠ '=')
  (String.ofList name, (cs.drop name.length).tail?.map String.ofList)

def step (p : Progress) (arg : String) : Except Stop Progress :=
  if p.operandsOnly then (if p.grammar.commands.isEmpty then p.operand arg else .error .refused)
  else
    match p.waiting, arg.toList with
    | none, ['-', '-'] => .ok { p with operandsOnly := true }
    | none, '-' :: '-' :: cs => p.long (splitValue cs).1 (splitValue cs).2
    | none, '-' :: c :: cs => p.shorts (c :: cs)
    | none, _ => if p.grammar.commands.isEmpty then p.operand arg else p.command arg
    | some _, '-' :: _ :: _ => .error .refused
    | some s, _ => p.give s arg

def finish (p : Progress) : Except Stop (List Given) :=
  if p.waiting.isSome || !p.grammar.commands.isEmpty || p.current.operands.length < p.grammar.required then
    .error .refused
  else .ok (p.current :: p.outer)

end Progress

def Grammar.read (g : Grammar) (args : List String) : Except Stop (List Given) := do
  (← args.foldlM Progress.step (.start g)).finish

end AccessControl.CommandLine
