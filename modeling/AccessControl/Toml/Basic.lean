import AccessControl.Double.Text
import AccessControl.Text.Digits

namespace AccessControl

inductive Toml where
  | boolean (b : Bool)
  | integer (n : Int)
  | double (d : Double)
  | string (s : String)
  | dateTime (text : String)
  | array (items : List Toml)
  | table (fields : List (String × Toml))

namespace Toml

def fields : Toml → List (String × Toml)
  | table fs => fs
  | _ => []

def get? (key : String) (t : Toml) : Option Toml := t.fields.lookup key

/-- The values of the named fields, in the order of the names: of a table by name, of an array by
place. Others are skipped. -/
def toRecord? (names : List String) : Toml → Option (List (Option Toml))
  | table fs => some (names.map fun n => fs.lookup n)
  | array items =>
    some ((items.take names.length).map some ++ List.replicate (names.length - items.length) none)
  | _ => none

/-! As written. -/

/-- A date or a time counts as a record that has none of the fields. -/
def record? (names : List String) : Toml → Option (List (Option Toml))
  | dateTime _ => some (names.map fun _ => none)
  | t => t.toRecord? names

def bool? : Toml → Option Bool
  | boolean b => some b
  | _ => none

def nat? : Toml → Option Nat
  | integer n => if 0 ≤ n ∧ n < UInt64.size then some n.toNat else none
  | _ => none

def string? : Toml → Option String
  | string s => some s
  | _ => none

/-! Converted. -/

def toBool? : Toml → Option Bool
  | boolean b => some b
  | integer n => some (n != 0)
  | double d => some !d.isZero
  | string s =>
    let word := s.toLower
    if word ∈ ["1", "true", "on", "yes"] then some true
    else if word ∈ ["0", "false", "off", "no"] then some false
    else none
  | _ => none

def readNat (s : String) : Option Nat :=
  let digits :=
    match s.toList with
    | '+' :: cs => cs
    | cs => cs
  match Text.natural digits with
  | some (n, []) => if n < UInt64.size then some n else none
  | _ => none

def toNat? : Toml → Option Nat
  | boolean b => some b.toNat
  | integer n => if 0 ≤ n then some n.toNat else none
  | double d => some d.roundToNat
  | string s =>
    let word := s.toLower
    if word ∈ ["true", "on", "yes"] then some 1
    else if word ∈ ["false", "off", "no"] then some 0
    else readNat s
  | _ => none

def toText? : Toml → Option String
  | boolean b => some (toString b)
  | integer n => some (toString n)
  | double d => some d.text
  | string s => some s
  | dateTime s => some s
  | _ => none

end Toml

end AccessControl
