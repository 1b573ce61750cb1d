import AccessControl.Attribute
import AccessControl.Double.Text
import AccessControl.Instant.Text

namespace AccessControl

inductive Value where
  | boolean (b : Bool)
  | string (s : String)
  | integer (n : Int64)
  | double (d : Double)
  | dateTime (t : Instant)

namespace Value

def valueType : Value → ValueType
  | boolean _ => .boolean
  | string _ => .string
  | integer _ => .integer
  | double _ => .double
  | dateTime _ => .dateTime

def string? : Value → Option String
  | string s => some s
  | _ => none

/-- Values of different types are incomparable, and so are booleans. -/
def compare : Value → Value → Option Ordering
  | string a, string b => some (Ord.compare a b)
  | integer a, integer b => some (Ord.compare a.toInt b.toInt)
  | double a, double b => some (Ord.compare a.foldZero.orderKey b.foldZero.orderKey)
  | dateTime a, dateTime b => some (Instant.compare a b)
  | _, _ => none

def same : Value → Value → Bool
  | boolean a, boolean b => a == b
  | string a, string b => a == b
  | integer a, integer b => a == b
  | double a, double b => a.foldZero.bits == b.foldZero.bits
  | dateTime a, dateTime b => a == b
  | _, _ => false

instance : BEq Value := ⟨same⟩

inductive HashInput where
  | flag (b : Bool)
  | text (s : String)
  | word (w : UInt64)
  | fields (fs : List Int)
deriving DecidableEq, Hashable

def hashInput : Value → HashInput
  | boolean b => .flag b
  | string s => .text s
  | integer n => .word n.toUInt64
  | double d => .word d.foldZero.bits
  | dateTime t => .fields [t.year, t.month, t.day, t.hour, t.minute, t.second, t.nano]

instance : Hashable Value := ⟨fun v => mixHash (hash v.valueType.name) (hash v.hashInput)⟩

def text : Value → String
  | boolean b => if b then "true" else "false"
  | string s => "\"" ++ s ++ "\""
  | integer n => toString n.toInt
  | double d => d.text
  | dateTime t => t.text

end Value

end AccessControl
