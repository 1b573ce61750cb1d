import AccessControl.Toml.Basic

namespace AccessControl

abbrev Layer := List (String × Toml)

namespace Layer

def put (key : String) (v : Toml) : Layer → Layer
  | [] => [(key, v)]
  | (k, w) :: fs => if k = key then (k, v) :: fs else (k, w) :: put key v fs

mutual

/-- The upper value with what it leaves of the lower one. An empty table leaves all of it. -/
def overlay : Toml → Option Toml → Toml
  | .table fs, lower => overlayFields fs (lower.getD (.table []))
  | v, _ => v

def overlayFields : List (String × Toml) → Toml → Toml
  | [], lower => lower
  | (k, v) :: fs, lower => overlayFields fs (.table (put k (overlay v (lower.get? k)) lower.fields))

end

def place (v : Toml) : List String → Option Toml → Toml
  | [], lower => overlay v lower
  | k :: ks, lower =>
    let fields := (lower.map Toml.fields).getD []
    .table (put k (place v ks (fields.lookup k)) fields)

def isKeyChar (c : Char) : Bool := c.isAlphanum || c == '_' || c == '-'

def keyParts : List Char → List (List Char)
  | [] => [[]]
  | c :: cs => if c = '.' then [] :: keyParts cs else (keyParts cs).modifyHead (c :: ·)

/-- A key with points names a place where each of its parts could be a key. -/
def keyPath (key : String) : List String :=
  let parts := keyParts key.toList
  if parts.all fun p => !p.isEmpty && p.all isKeyChar then parts.map String.ofList else [key]

def mergeInto (layer : Layer) (tree : Toml) : Toml :=
  layer.foldl (fun tree (k, v) => place v (keyPath k) (some tree)) tree

def merge (layers : List Layer) : Toml := layers.foldl (fun tree l => l.mergeInto tree) (.table [])

end Layer

end AccessControl
