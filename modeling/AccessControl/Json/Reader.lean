import AccessControl.Json.Basic
import AccessControl.Text.Digits

namespace AccessControl.Json

open Text

def skipBlanks (cs : List Char) : List Char :=
  cs.dropWhile fun c => c == ' ' || c == '\t' || c == '\n' || c == '\r'

def hexValue (c : Char) : Option Nat :=
  if '0' ≤ c ∧ c ≤ '9' then some (c.toNat - '0'.toNat)
  else if 'a' ≤ c ∧ c ≤ 'f' then some (c.toNat - 'a'.toNat + 10)
  else if 'A' ≤ c ∧ c ≤ 'F' then some (c.toNat - 'A'.toNat + 10)
  else none

def hexWord (a b c d : Char) : Option Nat := do
  some ((((← hexValue a) * 16 + (← hexValue b)) * 16 + (← hexValue c)) * 16 + (← hexValue d))

def escaped (c : Char) : Option Char :=
  match c with
  | '"' => some '"'
  | '\\' => some '\\'
  | '/' => some '/'
  | 'b' => some '\x08'
  | 'f' => some '\x0c'
  | 'n' => some '\n'
  | 'r' => some '\r'
  | 't' => some '\t'
  | _ => none

def isHighSurrogate (n : Nat) : Bool := 0xd800 ≤ n && n < 0xdc00

def isLowSurrogate (n : Nat) : Bool := 0xdc00 ≤ n && n < 0xe000

def prepend (c : Option Char) : Option (Option (List Char) × List Char) →
    Option (Option (List Char) × List Char)
  | none => none
  | some (text, rest) => some (c.bind fun c => text.map (c :: ·), rest)

/-- A high surrogate that no low one follows makes the string unreadable. -/
def unpaired (high : Option Nat) (read : Option (Option (List Char) × List Char)) :
    Option (Option (List Char) × List Char) :=
  if high.isSome then prepend none read else read

/-- The rest of a string behind its opening quote, or behind the given high surrogate. The text is
`none` when it holds a lone surrogate. -/
def readChars (high : Option Nat) : List Char → Option (Option (List Char) × List Char)
  | [] => none
  | '"' :: rest => unpaired high (some (some [], rest))
  | '\\' :: 'u' :: a :: b :: c :: d :: rest =>
    match hexWord a b c d with
    | none => none
    | some n =>
      if isHighSurrogate n then unpaired high (readChars (some n) rest)
      else if isLowSurrogate n then
        prepend (high.map fun h => Char.ofNat (0x10000 + (h - 0xd800) * 0x400 + (n - 0xdc00)))
          (readChars none rest)
      else unpaired high (prepend (some (Char.ofNat n)) (readChars none rest))
  | '\\' :: c :: rest =>
    match escaped c with
    | none => none
    | some d => unpaired high (prepend (some d) (readChars none rest))
  | c :: rest =>
    if c.toNat < 0x20 then none else unpaired high (prepend (some c) (readChars none rest))

def readString (cs : List Char) : Option (Option String × List Char) :=
  (readChars none cs).map fun (text, rest) => (text.map String.ofList, rest)

/-- The significand takes digits while it stays below `2 ^ 64`. Of a whole number the digits that do
not fit count as powers of ten. -/
def wholeDigits : List Char → Nat → Bool → Nat → Nat × Nat
  | [], n, _, dropped => (n, dropped)
  | c :: cs, n, full, dropped =>
    if full || UInt64.size ≤ 10 * n + digitValue c then wholeDigits cs n true (dropped + 1)
    else wholeDigits cs (10 * n + digitValue c) false dropped

def fractionDigits : List Char → Nat → Nat → Nat × Nat
  | [], n, places => (n, places)
  | c :: cs, n, places =>
    if UInt64.size ≤ 10 * n + digitValue c then (n, places)
    else fractionDigits cs (10 * n + digitValue c) (places + 1)

def readExponent : List Char → Option (Int × List Char)
  | [] => some (0, [])
  | c :: cs =>
    if c = 'e' ∨ c = 'E' then
      match cs with
      | '+' :: ds => (natural ds).map fun (n, rest) => ((n : Int), rest)
      | '-' :: ds => (natural ds).map fun (n, rest) => (-(n : Int), rest)
      | ds => (natural ds).map fun (n, rest) => ((n : Int), rest)
    else some (0, c :: cs)

def readFraction : List Char → Option (Option (List Char) × List Char)
  | '.' :: cs =>
    let digits := cs.takeWhile isDigit
    if digits.isEmpty then none else some (some digits, cs.drop digits.length)
  | cs => some (none, cs)

def signedDouble (negative : Bool) (d : Option Double) : Json :=
  match d with
  | none => unreadable
  | some d => double (if negative then d.negate else d)

def wholeNumber (negative : Bool) (n dropped : Nat) : Json :=
  if dropped ≠ 0 then signedDouble negative ((Double.ofNat n).scale dropped)
  else if !negative then integer n
  else if 0 < n ∧ n ≤ Nat.pow 2 63 then integer (-(n : Int))
  else double (Double.ofNat n).negate

def readUnsigned (negative : Bool) (cs : List Char) : Option (Json × List Char) := do
  let digits := cs.takeWhile isDigit
  if digits.isEmpty || (digits.head? == some '0' && 1 < digits.length) then none
  else
    let (whole, dropped) := wholeDigits digits 0 false 0
    let (fraction, rest) ← readFraction (cs.drop digits.length)
    let (exponent, last) ← readExponent rest
    if fraction.isNone && rest.length == last.length then some (wholeNumber negative whole dropped, last)
    else
      let (n, places) := fractionDigits (fraction.getD []) whole 0
      some (signedDouble negative ((Double.ofNat n).scale (dropped - places + exponent)), last)

def readNumber : List Char → Option (Json × List Char)
  | '-' :: cs => readUnsigned true cs
  | cs => readUnsigned false cs

def ofFields (fields : List (Option String × Json)) : Json :=
  match fields.mapM fun (k, j) => k.map (·, j) with
  | some fields => object fields
  | none => unreadable

/-- A container is unreadable when no level is left for it. -/
def nested (room : Nat) (j : Json) : Json := if room = 0 then unreadable else j

mutual

def readValue : Nat → Nat → List Char → Option (Json × List Char)
  | 0, _, _ => none
  | fuel + 1, room, cs =>
    match skipBlanks cs with
    | 'n' :: 'u' :: 'l' :: 'l' :: rest => some (null, rest)
    | 't' :: 'r' :: 'u' :: 'e' :: rest => some (bool true, rest)
    | 'f' :: 'a' :: 'l' :: 's' :: 'e' :: rest => some (bool false, rest)
    | '"' :: rest => do
      let (text, rest) ← readString rest
      some ((text.map string).getD unreadable, rest)
    | '[' :: rest =>
      match skipBlanks rest with
      | ']' :: rest => some (nested room (array []), rest)
      | rest => do
        let (items, rest) ← readItems fuel (room - 1) rest
        some (nested room (array items), rest)
    | '\x7b' :: rest =>
      match skipBlanks rest with
      | '\x7d' :: rest => some (nested room (object []), rest)
      | rest => do
        let (fields, rest) ← readFields fuel (room - 1) rest
        some (nested room (ofFields fields), rest)
    | rest => readNumber rest

def readItems : Nat → Nat → List Char → Option (List Json × List Char)
  | 0, _, _ => none
  | fuel + 1, room, cs => do
    let (j, rest) ← readValue fuel room cs
    match skipBlanks rest with
    | ',' :: rest =>
      let (js, rest) ← readItems fuel room rest
      some (j :: js, rest)
    | ']' :: rest => some ([j], rest)
    | _ => none

def readFields : Nat → Nat → List Char → Option (List (Option String × Json) × List Char)
  | 0, _, _ => none
  | fuel + 1, room, cs =>
    match skipBlanks cs with
    | '"' :: rest => do
      let (key, rest) ← readString rest
      let rest ← expect ':' (skipBlanks rest)
      let (j, rest) ← readValue fuel room rest
      match skipBlanks rest with
      | ',' :: rest =>
        let (fs, rest) ← readFields fuel room rest
        some ((key, j) :: fs, rest)
      | '\x7d' :: rest => some ([(key, j)], rest)
      | _ => none
    | _ => none

end

/-- Each level of the reader takes a character or ends, two levels for an opening bracket. -/
def readingFuel (cs : List Char) : Nat := 2 * cs.length + 2

def read (text : String) : Option Json := do
  let cs := text.toList
  let (j, rest) ← readValue (readingFuel cs) maxNesting cs
  if (skipBlanks rest).isEmpty then some j else none

end AccessControl.Json
