import AccessControl.Double.Basic
import AccessControl.Text.Digits

namespace AccessControl.Double

open Text

def readPower : List Char → Option Int
  | [] => some 0
  | c :: cs =>
    if c = 'e' ∨ c = 'E' then
      let (negative, digits) :=
        match cs with
        | '-' :: ds => (true, ds)
        | '+' :: ds => (false, ds)
        | ds => (false, ds)
      if digits.isEmpty || !digits.all isDigit then none
      else some (if negative then -(valueOf digits : Int) else valueOf digits)
    else none

def readMagnitude (cs : List Char) : Option Double := do
  let whole := cs.takeWhile isDigit
  let rest := cs.drop whole.length
  let (fraction, rest) :=
    match rest with
    | '.' :: ds => (ds.takeWhile isDigit, ds.dropWhile isDigit)
    | ds => ([], ds)
  let power ← readPower rest
  if whole.isEmpty && fraction.isEmpty then none
  else some (nearest (valueOf (whole ++ fraction)) (power - fraction.length))

def readUnsigned (cs : List Char) : Option Double :=
  let word := cs.map Char.toLower
  if word = ['n', 'a', 'n'] then some nan
  else if word = ['i', 'n', 'f'] ∨ word = ['i', 'n', 'f', 'i', 'n', 'i', 't', 'y'] then some infinity
  else readMagnitude cs

def read (cs : List Char) : Option Double :=
  match cs with
  | '-' :: rest => (readUnsigned rest).map negate
  | '+' :: rest => readUnsigned rest
  | cs => readUnsigned cs

end AccessControl.Double
