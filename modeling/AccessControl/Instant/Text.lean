import AccessControl.Instant.Basic
import AccessControl.Text.Digits

namespace AccessControl.Instant

open Text

def yearText (year : Int) : List Char :=
  if 0 ≤ year ∧ year ≤ 9999 then padded 4 year.natAbs
  else (if 0 ≤ year then '+' else '-') :: padded 4 year.natAbs

def fractionText (nano : Nat) : List Char :=
  if nano = 0 then []
  else if nano % 1000000 = 0 then '.' :: padded 3 (nano / 1000000)
  else if nano % 1000 = 0 then '.' :: padded 6 (nano / 1000)
  else '.' :: padded 9 nano

def fieldsText (t : Instant) : List Char :=
  yearText t.year ++ '-' :: padded 2 t.month ++ '-' :: padded 2 t.day ++
    'T' :: padded 2 t.hour ++ ':' :: padded 2 t.minute ++ ':' :: padded 2 t.second ++ fractionText t.nano

def text (t : Instant) : String := String.ofList (t.fieldsText ++ ['+', '0', '0', ':', '0', '0'])

def documentText (t : Instant) : String := String.ofList (t.fieldsText ++ ['Z'])

end AccessControl.Instant
