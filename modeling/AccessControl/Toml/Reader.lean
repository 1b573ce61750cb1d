import AccessControl.Toml.Scalar
import AccessControl.Toml.Tree

namespace AccessControl.Toml

open Text

def skipSpaces (cs : List Char) : List Char := cs.dropWhile fun c => c == ' ' || c == '\t'

def skipLines (inComment : Bool) : List Char → Option (List Char)
  | [] => some []
  | '\n' :: cs => skipLines false cs
  | '\r' :: '\n' :: cs => skipLines false cs
  | c :: cs =>
    if inComment then (if isControl c then none else skipLines true cs)
    else if c = ' ' ∨ c = '\t' then skipLines false cs
    else if c = '#' then skipLines true cs
    else some (c :: cs)

def endLine (cs : List Char) : Option (List Char) :=
  match skipSpaces cs with
  | [] => some []
  | '\n' :: rest => some rest
  | '\r' :: '\n' :: rest => some rest
  | '#' :: rest => skipLines true rest
  | _ => none

/-! Strings. -/

def readScalar (width : Nat) (cs : List Char) : Option (Char × List Char) :=
  let digits := cs.take width
  let n := valueIn 16 digits
  if digits.length = width ∧ digits.all (fun c => (digitIn 16 c).isSome) ∧ n.isValidChar then
    some (Char.ofNat n, cs.drop width)
  else none

def readEscape : List Char → Option (Char × List Char)
  | 'b' :: cs => some ('\x08', cs)
  | 't' :: cs => some ('\t', cs)
  | 'n' :: cs => some ('\n', cs)
  | 'f' :: cs => some ('\x0c', cs)
  | 'r' :: cs => some ('\r', cs)
  | '"' :: cs => some ('"', cs)
  | '\\' :: cs => some ('\\', cs)
  | 'e' :: cs => some ('\x1b', cs)
  | 'x' :: cs => readScalar 2 cs
  | 'u' :: cs => readScalar 4 cs
  | 'U' :: cs => readScalar 8 cs
  | _ => none

def readBasic : Nat → List Char → Option (List Char × List Char)
  | 0, _ => none
  | _, [] => none
  | _, '"' :: cs => some ([], cs)
  | fuel + 1, '\\' :: cs => do
    let (c, cs) ← readEscape cs
    let (text, cs) ← readBasic fuel cs
    some (c :: text, cs)
  | fuel + 1, c :: cs =>
    if isControl c then none else (readBasic fuel cs).map fun (text, cs) => (c :: text, cs)

def readLiteral : List Char → Option (List Char × List Char)
  | [] => none
  | '\'' :: cs => some ([], cs)
  | c :: cs => if isControl c then none else (readLiteral cs).map fun (text, cs) => (c :: text, cs)

/-- A line break right behind three opening quotes does not count. -/
def skipFirstBreak : List Char → List Char
  | '\n' :: cs => cs
  | '\r' :: '\n' :: cs => cs
  | cs => cs

def skipFolded : List Char → List Char
  | '\r' :: '\n' :: cs => skipFolded cs
  | c :: cs => if c = ' ' ∨ c = '\t' ∨ c = '\n' then skipFolded cs else c :: cs
  | [] => []

def startsLine (cs : List Char) : Bool :=
  match skipSpaces cs with
  | '\n' :: _ => true
  | '\r' :: '\n' :: _ => true
  | _ => false

/-- How many of the quotes at the front belong to the text, if they close it: of three to five
quotes the last three are the closing ones. -/
def closing? (quote : Char) (cs : List Char) : Option (List Char × List Char) :=
  let quotes := (cs.take 5).takeWhile (· == quote)
  if quotes.length < 3 then none else some (quotes.drop 3, cs.drop quotes.length)

def readLong (quote : Char) (escapes : Bool) : Nat → List Char → Option (List Char × List Char)
  | 0, _ => none
  | _, [] => none
  | fuel + 1, c :: cs =>
    match closing? quote (c :: cs) with
    | some found => some found
    | none =>
      if escapes ∧ c = '\\' then
        if startsLine cs then readLong quote escapes fuel (skipFolded cs)
        else do
          let (e, cs) ← readEscape cs
          let (text, cs) ← readLong quote escapes fuel cs
          some (e :: text, cs)
      else
        match c, cs with
        | '\r', '\n' :: cs =>
          (readLong quote escapes fuel cs).map fun (text, cs) => ('\r' :: '\n' :: text, cs)
        | c, cs =>
          if isControl c ∧ c ≠ '\n' then none
          else (readLong quote escapes fuel cs).map fun (text, cs) => (c :: text, cs)

def readString (cs : List Char) : Option (String × List Char) :=
  let found :=
    match cs with
    | '"' :: '"' :: '"' :: rest => readLong '"' true cs.length (skipFirstBreak rest)
    | '\'' :: '\'' :: '\'' :: rest => readLong '\'' false cs.length (skipFirstBreak rest)
    | '"' :: rest => readBasic cs.length rest
    | '\'' :: rest => readLiteral rest
    | _ => none
  found.map fun (text, rest) => (String.ofList text, rest)

/-! Keys. -/

def readKey (cs : List Char) : Option (String × List Char) :=
  match cs with
  | '"' :: rest => (readBasic cs.length rest).map fun (text, rest) => (String.ofList text, rest)
  | '\'' :: rest => (readLiteral rest).map fun (text, rest) => (String.ofList text, rest)
  | cs =>
    let word := cs.takeWhile isBare
    if word.isEmpty then none else some (String.ofList word, cs.drop word.length)

/-- How deep arrays and inline tables may be nested, and how many tables a key may lead through. -/
def depthLimit : Nat := 80

def readKeysUpTo : Nat → List Char → Option (List String × List Char)
  | 0, _ => none
  | most + 1, cs => do
    let (key, rest) ← readKey (skipSpaces cs)
    match skipSpaces rest with
    | '.' :: rest => do
      let (keys, rest) ← readKeysUpTo most rest
      some (key :: keys, rest)
    | rest => some ([key], rest)

def readKeys (cs : List Char) : Option (List String × List Char) := readKeysUpTo (depthLimit + 1) cs

/-! Values. -/

mutual

/-- A value in which brackets and braces may be nested `depth` deep. -/
def readValue : Nat → Nat → List Char → Option (Toml × List Char)
  | 0, _, _ => none
  | fuel + 1, depth, cs =>
    match cs, depth with
    | '[' :: _, 0 => none
    | '[' :: rest, depth + 1 => do
      let (items, rest) ← readItems fuel depth rest
      some (array items, rest)
    | '\x7b' :: _, 0 => none
    | '\x7b' :: rest, depth + 1 => do
      let (tree, rest) ← readInline fuel depth [] rest
      some (tree.toToml, rest)
    | '"' :: _, _ => (readString cs).map fun (s, rest) => (string s, rest)
    | '\'' :: _, _ => (readString cs).map fun (s, rest) => (string s, rest)
    | cs, _ => do
      let (word, rest) := takeWord cs
      some (← ofWord word, rest)

def readItems : Nat → Nat → List Char → Option (List Toml × List Char)
  | 0, _, _ => none
  | fuel + 1, depth, cs => do
    match ← skipLines false cs with
    | ']' :: rest => some ([], rest)
    | cs => do
      let (v, rest) ← readValue fuel depth cs
      match ← skipLines false rest with
      | ',' :: rest => do
        let (vs, rest) ← readItems fuel depth rest
        some (v :: vs, rest)
      | ']' :: rest => some ([v], rest)
      | _ => none

/-- The fields of an inline table up to its end. Like an array it may span lines. -/
def readInline : Nat → Nat → Tree → List Char → Option (Tree × List Char)
  | 0, _, _, _ => none
  | fuel + 1, depth, tree, cs => do
    match ← skipLines false cs with
    | '\x7d' :: rest => some (tree, rest)
    | cs => do
      let (keys, rest) ← readKeys cs
      let rest ← expect '=' (← skipLines false rest)
      let (v, rest) ← readValue fuel depth (← skipLines false rest)
      let tree ← tree.assign v keys
      match ← skipLines false rest with
      | ',' :: rest => readInline fuel depth tree rest
      | '\x7d' :: rest => some (tree, rest)
      | _ => none

end

def readLines : Nat → List String → Tree → List Char → Option Tree
  | 0, _, _, _ => none
  | fuel + 1, place, tree, cs => do
    match ← skipLines false cs with
    | [] => some tree
    | '[' :: '[' :: rest => do
      let (keys, rest) ← readKeys rest
      let rest ← endLine (← expect ']' (← expect ']' rest))
      readLines fuel keys (← tree.openItem keys) rest
    | '[' :: rest => do
      let (keys, rest) ← readKeys rest
      let rest ← endLine (← expect ']' rest)
      readLines fuel keys (← tree.openTable keys) rest
    | cs => do
      let (keys, rest) ← readKeys cs
      let rest := skipSpaces (← expect '=' rest)
      let (v, rest) ← readValue (2 * cs.length) depthLimit rest
      readLines fuel place (← tree.descend (fun t => t.assign v keys) place) (← endLine rest)

def read (text : String) : Option (List (String × Toml)) := do
  let cs :=
    match text.toList with
    | '\ufeff' :: cs => cs
    | cs => cs
  some (← readLines (cs.length + 1) [] [] cs).toFields

end AccessControl.Toml
