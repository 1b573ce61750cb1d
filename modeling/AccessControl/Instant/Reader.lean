import AccessControl.Instant.Basic
import AccessControl.Text.Blank
import AccessControl.Text.Digits

namespace AccessControl.Instant

open Text

def readNanos : List Char → Option (Nat × List Char)
  | '.' :: cs =>
    let digits := (cs.take 9).takeWhile isDigit
    if digits.isEmpty then none
    else some (valueOf digits * Nat.pow 10 (9 - digits.length), (cs.drop digits.length).dropWhile isDigit)
  | cs => some (0, cs)

def readSeparator : List Char → Option (List Char)
  | c :: cs => if c = 'T' ∨ c = 't' ∨ c = ' ' then some cs else none
  | [] => none

def readOffsetFields (between : List Char → Option (List Char)) (cs : List Char) :
    Option (Int × List Char) := do
  let (hours, cs) ← number 2 2 cs
  let cs ← between cs
  let (minutes, cs) ← number 2 2 cs
  if hours < 24 ∧ minutes < 60 then some ((hours * 60 + minutes : Nat), cs) else none

def readOffset (between : List Char → Option (List Char)) : List Char → Option (Int × List Char)
  | [] => none
  | c :: cs =>
    if c = 'Z' ∨ c = 'z' then some (0, cs)
    else if c = '+' then readOffsetFields between cs
    else if c = '-' ∨ c = '\u2212' then (readOffsetFields between cs).map fun (m, cs) => (-m, cs)
    else none

def readStrict (s : String) : Option Instant := do
  let (year, cs) ← number 4 4 s.toList
  let (month, cs) ← number 2 2 (← expect '-' cs)
  let (day, cs) ← number 2 2 (← expect '-' cs)
  let (hour, cs) ← number 2 2 (← readSeparator cs)
  let (minute, cs) ← number 2 2 (← expect ':' cs)
  let (second, cs) ← number 2 2 (← expect ':' cs)
  let (nano, cs) ← readNanos cs
  let (offset, cs) ← readOffset (expect ':') cs
  let t ← ofFields? year month day hour minute second nano
  if cs.isEmpty then t.atOffset offset else none

def readYear (cs : List Char) : Option (Int × List Char) :=
  match dropBlanks cs with
  | '-' :: cs => (natural cs).map fun (y, cs) => (-(y : Int), cs)
  | '+' :: cs => (natural cs).map fun (y, cs) => ((y : Int), cs)
  | cs => (number 1 4 cs).map fun (y, cs) => ((y : Int), cs)

def readField (cs : List Char) : Option (Nat × List Char) := number 1 2 (dropBlanks cs)

def readMark (c : Char) (cs : List Char) : Option (List Char) := expect c (dropBlanks cs)

def readZone (cs : List Char) : Option (Int × List Char) :=
  if (cs.take 3).map Char.toUpper = ['U', 'T', 'C'] then some (0, cs.drop 3)
  else readOffset (fun cs => some (cs.dropWhile fun c => c == ':' || isBlank c)) cs

def readRelaxed (s : String) : Option Instant := do
  let (year, cs) ← readYear s.toList
  let (month, cs) ← readField (← readMark '-' cs)
  let (day, cs) ← readField (← readMark '-' cs)
  let (hour, cs) ← readField (← readSeparator cs)
  let (minute, cs) ← readField (← readMark ':' cs)
  let (second, cs) ← readField (← readMark ':' cs)
  let (nano, cs) ← readNanos cs
  let (offset, cs) ← readZone (dropBlanks cs)
  let t ← ofFields? year month day hour minute second nano
  if (dropBlanks cs).isEmpty then t.atOffset offset else none

end AccessControl.Instant
