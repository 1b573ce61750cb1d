import AccessControl.Files.Basic

namespace AccessControl

inductive Entry where
  | directory
  | file (text : String)
deriving DecidableEq

structure Volume where
  working : List String
  entries : List (List String × Entry)

namespace Volume

def entry? (v : Volume) (place : List String) : Option Entry :=
  if place.isEmpty then some .directory else v.entries.lookup place

def isDirectory (v : Volume) (place : List String) : Bool := v.entry? place == some .directory

def step (v : Volume) (place : List String) (name : String) : Option (List String) :=
  if !v.isDirectory place then none
  else if name = "" ∨ name = "." then some place
  else if name = ".." then some place.dropLast
  else some (place ++ [name])

def start (v : Volume) (path : String) : List String × List String :=
  let names := path.splitOn "/"
  (if names.head? = some "" then [] else v.working, names)

def locate (v : Volume) (path : String) : Option (List String) :=
  if path.isEmpty then none
  else
    let (place, names) := v.start path
    names.foldlM v.step place

def put (place : List String) (e : Entry) : List (List String × Entry) → List (List String × Entry)
  | [] => [(place, e)]
  | (p, f) :: rest => if p = place then (place, e) :: rest else (p, f) :: put place e rest

def set (v : Volume) (place : List String) (e : Entry) : Volume := { v with entries := put place e v.entries }

def read (v : Volume) (path : String) : Option String :=
  match (v.locate path).bind v.entry? with
  | some (.file text) => some text
  | _ => none

def found (v : Volume) (path : String) : Bool := ((v.locate path).bind v.entry?).isSome

def write (v : Volume) (path text : String) : Option Volume := do
  let place ← v.locate path
  if v.isDirectory place then none else some (v.set place (.file text))

def enter (v : Volume) (place : List String) (name : String) : Option (Volume × List String) := do
  let place ← v.step place name
  match v.entry? place with
  | some .directory => some (v, place)
  | some (.file _) => none
  | none => some (v.set place .directory, place)

def makeDirectory (v : Volume) (path : String) : Option Volume :=
  if path.isEmpty then some v
  else
    let (place, names) := v.start path
    (names.foldlM (fun (v, place) name => enter v place name) (v, place)).map Prod.fst

def add (v : Volume) (path text : String) : Option Volume := do
  let v ← v.makeDirectory ("/".intercalate (path.splitOn "/").dropLast)
  v.write path text

def filesBelow (v : Volume) (place : List String) : List (String × String) :=
  v.entries.filterMap fun (p, e) =>
    match e with
    | .file text => if place.isPrefixOf p then some ("/".intercalate (p.drop place.length), text) else none
    | .directory => none

/-- Keeps the volume as it was where a change is not possible. -/
def change (f : Volume → Option Volume) : StateM Volume Bool := fun v =>
  match f v with
  | some w => (true, w)
  | none => (false, v)

instance : Files (StateM Volume) where
  read path := fun v => (v.read path, v)
  found path := fun v => (v.found path, v)
  write path text := change fun v => v.write path text
  makeDirectory path := change fun v => v.makeDirectory path

end Volume

end AccessControl
