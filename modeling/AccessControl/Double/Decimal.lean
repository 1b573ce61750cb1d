import AccessControl.Double.Basic

namespace AccessControl

/-- `digits * 10 ^ exponent`. -/
structure Decimal where
  digits : Nat
  exponent : Int
deriving DecidableEq

namespace Decimal

inductive Tie where
  | up
  | even

def compareBinary (a : Nat) (i : Int) (n : Nat) (j : Int) : Ordering :=
  compare (a * Nat.pow 10 i.toNat * Nat.pow 2 (-j).toNat) (n * Nat.pow 2 j.toNat * Nat.pow 10 (-i).toNat)

def normalize (d : Decimal) : Decimal :=
  if 0 < d.digits ∧ d.digits % 10 = 0 then normalize ⟨d.digits / 10, d.exponent + 1⟩ else d
termination_by d.digits
decreasing_by omega

def figures (d : Decimal) : List Char := Nat.toDigits 10 d.digits

def leading (d : Decimal) : Int := d.exponent + d.figures.length - 1

end Decimal

namespace Double

/-- The decimal lies among the reals that round to the magnitude of `d`. Half-way points belong to
the double with an even significand; below a power of two the gap is half as wide. -/
def readsBack (d : Double) (c : Decimal) : Bool :=
  let (m, q) := d.parts
  let narrow := d.magnitude % Nat.pow 2 52 = 0 ∧ Nat.pow 2 53 ≤ d.magnitude
  let low := if narrow then 4 * m - 1 else 4 * m - 2
  let below := Decimal.compareBinary c.digits c.exponent low (q - 2)
  let above := Decimal.compareBinary c.digits c.exponent (4 * m + 2) (q - 2)
  (below == .gt || (m % 2 == 0 && below == .eq)) && (above == .lt || (m % 2 == 0 && above == .eq))

def floorAt (d : Double) (e : Int) : Nat :=
  let (m, q) := d.parts
  m * Nat.pow 2 q.toNat * Nat.pow 10 (-e).toNat / (Nat.pow 2 (-q).toNat * Nat.pow 10 e.toNat)

def compareTwice (d : Double) (n : Nat) (e : Int) : Ordering :=
  let (m, q) := d.parts
  (Decimal.compareBinary n e (2 * m) q).swap

def leadingExponent (d : Double) : Int :=
  let (m, q) := d.parts
  if 0 < d.floorAt 0 then (Nat.toDigits 10 (d.floorAt 0)).length - 1
  else
    let guess : Int := -((Nat.toDigits 10 (Nat.pow 2 (-q).toNat / m)).length : Int)
    if Decimal.compareBinary 1 (guess + 1) m q == .gt then guess else guess + 1

/-- The neighbour of `d` among the multiples of `10 ^ e` that reads back, if one does. -/
def onGrid (d : Double) (tie : Decimal.Tie) (e : Int) : Option Decimal :=
  let n := d.floorAt e
  let low : Decimal := ⟨n, e⟩
  let high : Decimal := ⟨n + 1, e⟩
  match d.readsBack low, d.readsBack high with
  | false, false => none
  | true, false => some low
  | false, true => some high
  | true, true =>
    match d.compareTwice (2 * n + 1) e, tie with
    | .lt, _ => some low
    | .gt, _ => some high
    | .eq, .up => some high
    | .eq, .even => if n % 2 = 0 then some low else some high

/-- The shortest decimal of a finite magnitude other than zero. Seventeen digits always suffice;
the exact value stands behind the search. -/
def shortest (d : Double) (tie : Decimal.Tie) : Decimal :=
  let lead := d.leadingExponent
  let found := (List.range 17).findSome? fun (i : Nat) => d.onGrid tie (lead - i)
  match found with
  | some c => c.normalize
  | none =>
    let (m, q) := d.parts
    Decimal.normalize ⟨m * Nat.pow 2 q.toNat * Nat.pow 5 (-q).toNat, min q 0⟩

end Double

end AccessControl
