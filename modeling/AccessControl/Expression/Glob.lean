namespace AccessControl.Glob

/-- What is left of pattern and value, and the same behind the last star with the value it started
from. -/
structure State where
  pattern : List Char
  value : List Char
  star : Option (List Char × List Char)

inductive Step where
  | next (s : State)
  | done (matched : Bool)

def retreat : Option (List Char × List Char) → Step
  | some (p, _ :: v) => .next ⟨p, v, some (p, v)⟩
  | _ => .done false

def step (s : State) : Step :=
  match s.value with
  | [] => .done (s.pattern.all fun c => c == '*')
  | c :: v =>
    match s.pattern with
    | [] => retreat s.star
    | d :: p =>
      if d = '*' then .next ⟨p, c :: v, some (p, c :: v)⟩
      else if d = '?' ∨ d = c then .next ⟨p, v, s.star⟩
      else retreat s.star

/-- `none` when the steps do not suffice. -/
def run : Nat → State → Option Bool
  | 0, _ => none
  | n + 1, s =>
    match step s with
    | .next s => run n s
    | .done b => some b

def bound (pattern value : List Char) : Nat := (pattern.length + 1) * (value.length + 1)

def matchesChars (pattern value : List Char) : Bool :=
  (run (bound pattern value + 1) ⟨pattern, value, none⟩).getD false

def accepts (pattern value : String) : Bool := matchesChars pattern.toList value.toList

end AccessControl.Glob
