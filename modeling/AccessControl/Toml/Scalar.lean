import AccessControl.Double.Reader
import AccessControl.Instant.Basic
import AccessControl.Toml.Basic
import AccessControl.Toml.Character

namespace AccessControl.Toml

open Text

/-- The digits of a run in which single underscores stand between digits. -/
def ungroup (accepts : Char → Bool) : List Char → Option (List Char)
  | [] => none
  | [c] => if accepts c then some [c] else none
  | c :: '_' :: cs => if accepts c then (ungroup accepts cs).map (c :: ·) else none
  | c :: cs => if accepts c then (ungroup accepts cs).map (c :: ·) else none

def digitIn (base : Nat) (c : Char) : Option Nat :=
  let n :=
    if isDigit c then digitValue c
    else if 'a' ≤ c ∧ c ≤ 'f' then c.toNat - 'a'.toNat + 10
    else if 'A' ≤ c ∧ c ≤ 'F' then c.toNat - 'A'.toNat + 10
    else base
  if n < base then some n else none

def valueIn (base : Nat) (digits : List Char) : Nat :=
  digits.foldl (fun n c => base * n + (digitIn base c).getD 0) 0

/-- An integer has at most 128 bits, with a sign or without. -/
def bounded (n : Int) : Option Toml :=
  if -Int.pow 2 127 ≤ n ∧ n < Int.pow 2 128 then some (integer n) else none

def readBased (base : Nat) (cs : List Char) : Option Toml := do
  bounded (valueIn base (← ungroup (fun c => (digitIn base c).isSome) cs))

def splitSign : List Char → Option Char × List Char
  | '+' :: cs => (some '+', cs)
  | '-' :: cs => (some '-', cs)
  | cs => (none, cs)

def readDecimal (cs : List Char) : Option (List Char) := do
  let digits ← ungroup isDigit cs
  if digits.head? == some '0' && 1 < digits.length then none else some digits

def readInteger (cs : List Char) : Option Toml :=
  match cs with
  | '0' :: 'x' :: rest => readBased 16 rest
  | '0' :: 'o' :: rest => readBased 8 rest
  | '0' :: 'b' :: rest => readBased 2 rest
  | cs =>
    let (sign, rest) := splitSign cs
    (readDecimal rest).bind fun digits =>
      bounded (if sign = some '-' then -(valueOf digits : Int) else valueOf digits)

def splitWhere (mark : Char → Bool) (cs : List Char) : List Char × Option (List Char) :=
  let front := cs.takeWhile fun c => !mark c
  (front, (cs.drop front.length).tail?)

def isPowerMark (c : Char) : Bool := c == 'e' || c == 'E'

def readFloat (cs : List Char) : Option Toml := do
  let (sign, rest) := splitSign cs
  let negate (d : Double) : Toml := double (if sign = some '-' then d.negate else d)
  if rest = ['i', 'n', 'f'] then some (negate .infinity)
  else if rest = ['n', 'a', 'n'] then some (negate .nan)
  else
    let (number, power) := splitWhere isPowerMark rest
    let (whole, fraction) := splitWhere (· == '.') number
    if power.isNone && fraction.isNone then none
    else
      let whole ← readDecimal whole
      let fraction ←
        match fraction with
        | none => some []
        | some cs => ungroup isDigit cs
      let power ←
        match power with
        | none => some (0 : Int)
        | some cs =>
          let (sign, digits) := splitSign cs
          (ungroup isDigit digits).map fun digits =>
            if sign = some '-' then -(valueOf digits : Int) else valueOf digits
      let d := Double.nearest (valueOf (whole ++ fraction)) (power - fraction.length)
      if d.isInfinite then none else some (negate d)

def readDate (cs : List Char) : Option (List Char × List Char) := do
  let (year, rest) ← number 4 4 cs
  let (month, rest) ← number 2 2 (← expect '-' rest)
  let (day, rest) ← number 2 2 (← expect '-' rest)
  if 1 ≤ month ∧ month ≤ 12 ∧ 1 ≤ day ∧ day ≤ Instant.daysIn year month then
    some (padded 4 year ++ '-' :: padded 2 month ++ '-' :: padded 2 day, rest)
  else none

/-- A fraction in normal form: at most nine digits, without zeros at the end but with one digit. -/
def fractionText (digits : List Char) : List Char :=
  let kept := ((digits.take 9).reverse.dropWhile (· == '0')).reverse
  '.' :: if kept.isEmpty then ['0'] else kept

def readSeconds : List Char → Option (List Char × List Char)
  | ':' :: cs => do
    let (second, rest) ← number 2 2 cs
    let (fraction, rest) ←
      match rest with
      | '.' :: ds =>
        let digits := ds.takeWhile isDigit
        if digits.isEmpty then none else some (fractionText digits, ds.drop digits.length)
      | rest => some ([], rest)
    if second ≤ 60 then some (':' :: padded 2 second ++ fraction, rest) else none
  | cs => some ([], cs)

def readTime (cs : List Char) : Option (List Char × List Char) := do
  let (hour, rest) ← number 2 2 cs
  let (minute, rest) ← number 2 2 (← expect ':' rest)
  let (seconds, rest) ← readSeconds rest
  if hour < 24 ∧ minute < 60 then
    some (padded 2 hour ++ ':' :: padded 2 minute ++ seconds, rest)
  else none

def readOffset (cs : List Char) : Option (List Char) := do
  match cs with
  | [] => some []
  | c :: rest =>
    if c = 'Z' ∨ c = 'z' then (if rest.isEmpty then some ['Z'] else none)
    else if c = '+' ∨ c = '-' then
      let (hours, rest) ← number 2 2 rest
      let (minutes, rest) ← number 2 2 (← expect ':' rest)
      let sign := if hours = 0 ∧ minutes = 0 then '+' else c
      if hours < 24 ∧ minutes < 60 ∧ rest.isEmpty then
        some (sign :: padded 2 hours ++ ':' :: padded 2 minutes)
      else none
    else none

def readDateTime (cs : List Char) : Option Toml :=
  match readDate cs with
  | some (date, []) => some (dateTime (String.ofList date))
  | some (date, mark :: rest) =>
    if mark = 'T' ∨ mark = 't' ∨ mark = ' ' then do
      let (time, rest) ← readTime rest
      let offset ← readOffset rest
      some (dateTime (String.ofList (date ++ 'T' :: time ++ offset)))
    else none
  | none =>
    match readTime cs with
    | some (time, []) => some (dateTime (String.ofList time))
    | _ => none

/-- The word at the front. A date takes a time behind one space along. -/
def takeWord (cs : List Char) : List Char × List Char :=
  let word := cs.takeWhile isWordChar
  let rest := cs.drop word.length
  match readDate word, rest with
  | some (_, []), ' ' :: c :: more =>
    if isDigit c then
      let time := (c :: more).takeWhile isWordChar
      (word ++ ' ' :: time, (c :: more).drop time.length)
    else (word, rest)
  | _, _ => (word, rest)

def ofWord (word : List Char) : Option Toml :=
  if word = ['t', 'r', 'u', 'e'] then some (boolean true)
  else if word = ['f', 'a', 'l', 's', 'e'] then some (boolean false)
  else (readInteger word).orElse fun _ => (readFloat word).orElse fun _ => readDateTime word

end AccessControl.Toml
