import AccessControl.Double.Basic

namespace AccessControl

inductive Json where
  | null
  | bool (b : Bool)
  /-- An integer from -2^63 to 2^64 - 1. -/
  | integer (n : Int)
  | double (d : Double)
  | string (s : String)
  | array (items : List Json)
  | object (fields : List (String × Json))
  /-- Well-formed text without a value: a number beyond the doubles, a lone surrogate, a container
  that is nested too deep. It may stand where it is skipped and nowhere else. -/
  | unreadable

namespace Json

def maxNesting : Nat := 127

def ofOption (encode : α → Json) : Option α → Json
  | none => null
  | some a => encode a

def string? : Json → Option String
  | string s => some s
  | _ => none

def bool? : Json → Option Bool
  | bool b => some b
  | _ => none

def array? : Json → Option (List Json)
  | array items => some items
  | _ => none

def int64? : Json → Option Int64
  | integer n => if Int64.minValue.toInt ≤ n ∧ n ≤ Int64.maxValue.toInt then some (Int64.ofInt n) else none
  | _ => none

def nat? : Json → Option Nat
  | integer n => if 0 ≤ n then some n.toNat else none
  | _ => none

def double? : Json → Option Double
  | integer n => some (Double.ofInt n)
  | double d => some d
  | _ => none

def field? (key : String) : Json → Option Json
  | object fields => fields.lookup key
  | _ => none

mutual

def readable : Json → Bool
  | array items => allReadable items
  | object fields => fieldsReadable fields
  | unreadable => false
  | _ => true

def allReadable : List Json → Bool
  | [] => true
  | j :: js => j.readable && allReadable js

def fieldsReadable : List (String × Json) → Bool
  | [] => true
  | (_, j) :: fs => j.readable && fieldsReadable fs

end

mutual

def depth : Json → Nat
  | array items => 1 + depthOfItems items
  | object fields => 1 + depthOfFields fields
  | _ => 0

def depthOfItems : List Json → Nat
  | [] => 0
  | j :: js => max j.depth (depthOfItems js)

def depthOfFields : List (String × Json) → Nat
  | [] => 0
  | (_, j) :: fs => max j.depth (depthOfFields fs)

end

def insertField (key : String) (j : Json) : List (String × Json) → List (String × Json)
  | [] => [(key, j)]
  | (k, i) :: fs =>
    if key < k then (key, j) :: (k, i) :: fs
    else if k < key then (k, i) :: insertField key j fs
    else (key, j) :: fs

mutual

/-- Objects with their keys in order and, of repeated keys, the last value. -/
def canonical : Json → Json
  | array items => array (canonicalItems items)
  | object fields => object (canonicalFields fields [])
  | j => j

def canonicalItems : List Json → List Json
  | [] => []
  | j :: js => j.canonical :: canonicalItems js

def canonicalFields : List (String × Json) → List (String × Json) → List (String × Json)
  | [], done => done
  | (k, j) :: fs, done => canonicalFields fs (insertField k j.canonical done)

end

end Json

end AccessControl
