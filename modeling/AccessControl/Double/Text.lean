import AccessControl.Double.Decimal

namespace AccessControl

namespace Decimal

def zeros (n : Nat) : List Char := List.replicate n '0'

def positional (d : Decimal) (fraction : List Char) : List Char :=
  let figures := d.figures
  let whole := d.leading + 1
  if 0 ≤ d.exponent then figures ++ zeros d.exponent.toNat ++ fraction
  else if 0 < whole then figures.take whole.toNat ++ '.' :: figures.drop whole.toNat
  else '0' :: '.' :: zeros (-whole).toNat ++ figures

def scientific (d : Decimal) : List Char :=
  let exponent := (if 0 ≤ d.leading then '+' else '-') :: Nat.toDigits 10 d.leading.natAbs
  match d.figures with
  | [] => []
  | [c] => c :: 'e' :: exponent
  | c :: cs => c :: '.' :: cs ++ 'e' :: exponent

end Decimal

namespace Double

def signed (d : Double) (text : List Char) : String :=
  String.ofList (if d.negative then '-' :: text else text)

def text (d : Double) : String :=
  if d.isNaN then "NaN"
  else if d.isInfinite then d.signed ['i', 'n', 'f']
  else if d.isZero then d.signed ['0']
  else d.signed ((d.shortest .up).positional [])

/-- Leading exponents from -5 to 15 are written out, whole numbers with `.0`; others have an
exponent. -/
def numberText (d : Double) : String :=
  if d.isZero then d.signed ['0', '.', '0']
  else
    let c := d.shortest .even
    if -5 ≤ c.leading ∧ c.leading ≤ 15 then d.signed (c.positional ['.', '0']) else d.signed c.scientific

end Double

end AccessControl
