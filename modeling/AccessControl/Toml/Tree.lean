import AccessControl.Toml.Basic

namespace AccessControl.Toml

inductive Origin where
  | header
  | onTheWay
  | dottedKey
deriving DecidableEq

inductive Node where
  | value (v : Toml)
  | table (origin : Origin) (fields : List (String × Node))
  /-- The latest table of an array, and the finished ones before it, latest first. -/
  | tables (latest : List (String × Node)) (finished : List (List (String × Toml)))

abbrev Tree := List (String × Node)

mutual

def Node.toToml : Node → Toml
  | .value v => v
  | .table _ fs => .table (fieldsToToml fs)
  | .tables latest finished => .array ((.table (fieldsToToml latest) :: finished.map .table).reverse)

def fieldsToToml : List (String × Node) → List (String × Toml)
  | [] => []
  | (k, n) :: fs => (k, n.toToml) :: fieldsToToml fs

end

namespace Tree

def toFields (t : Tree) : List (String × Toml) := fieldsToToml t

def toToml (t : Tree) : Toml := .table t.toFields

def put (key : String) (n : Node) : Tree → Tree
  | [] => [(key, n)]
  | (k, m) :: fs => if k = key then (k, n) :: fs else (k, m) :: put key n fs

/-- Changes the table at a place named by headers. Of an array that is its latest table. -/
def descend (change : Tree → Option Tree) : List String → Tree → Option Tree
  | [], t => change t
  | k :: ks, t =>
    match t.lookup k with
    | none => (descend change ks []).map fun sub => put k (.table .onTheWay sub) t
    | some (.table origin sub) => (descend change ks sub).map fun sub => put k (.table origin sub) t
    | some (.tables latest finished) =>
      (descend change ks latest).map fun latest => put k (.tables latest finished) t
    | some (.value _) => none

/-- Sets a new key below dotted keys. Of an array they extend no item, only tables inside of the
latest one. -/
def assign (v : Toml) : List String → Tree → Option Tree
  | [], _ => none
  | [k], t => if (t.lookup k).isSome then none else some (put k (.value v) t)
  | k :: ks, t =>
    match t.lookup k with
    | none => (assign v ks []).map fun sub => put k (.table .dottedKey sub) t
    | some (.table origin sub) =>
      if origin = .header then none
      else (assign v ks sub).map fun sub => put k (.table origin sub) t
    | some (.tables latest finished) =>
      if ks.length = 1 then none
      else (assign v ks latest).map fun latest => put k (.tables latest finished) t
    | some (.value _) => none

def declareTable (key : String) (t : Tree) : Option Tree :=
  match t.lookup key with
  | none => some (put key (.table .header []) t)
  | some (.table .onTheWay sub) => some (put key (.table .header sub) t)
  | _ => none

def declareItem (key : String) (t : Tree) : Option Tree :=
  match t.lookup key with
  | none => some (put key (.tables [] []) t)
  | some (.tables latest finished) => some (put key (.tables [] (fieldsToToml latest :: finished)) t)
  | _ => none

def openTable (keys : List String) (t : Tree) : Option Tree := do
  descend (declareTable (← keys.getLast?)) keys.dropLast t

def openItem (keys : List String) (t : Tree) : Option Tree := do
  descend (declareItem (← keys.getLast?)) keys.dropLast t

end Tree

end AccessControl.Toml
