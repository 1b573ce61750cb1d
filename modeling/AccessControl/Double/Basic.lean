namespace AccessControl

/-- A double-precision number, held by its 64 bits. -/
structure Double where
  bits : UInt64
deriving DecidableEq

namespace Double

def zero : Double := ⟨0⟩

/-- The bits of infinity without its sign. Finite magnitudes are below, NaN above. -/
def infinityBits : Nat := 0x7ff0000000000000

def magnitude (d : Double) : Nat := d.bits.toNat % Nat.pow 2 63

def negative (d : Double) : Bool := Nat.pow 2 63 ≤ d.bits.toNat

def isZero (d : Double) : Bool := d.magnitude == 0

def isFinite (d : Double) : Bool := d.magnitude < infinityBits

def isInfinite (d : Double) : Bool := d.magnitude == infinityBits

def isNaN (d : Double) : Bool := infinityBits < d.magnitude

def infinity : Double := ⟨0x7ff0000000000000⟩

def nan : Double := ⟨0x7ff8000000000000⟩

def negate (d : Double) : Double := ⟨d.bits ^^^ 0x8000000000000000⟩

def foldZero (d : Double) : Double := if d.isZero then zero else d

/-- Places the bit patterns in the IEEE total order: negative NaNs first, positive NaNs last. -/
def orderKey (d : Double) : Int :=
  if d.negative then -(d.magnitude : Int) - 1 else d.magnitude

def ofFloat (x : Float) : Double := ⟨x.toBits⟩

def toFloat (d : Double) : Float := Float.ofBits d.bits

def add (a b : Double) : Double := ofFloat (a.toFloat + b.toFloat)

def sub (a b : Double) : Double := ofFloat (a.toFloat - b.toFloat)

def mul (a b : Double) : Double := ofFloat (a.toFloat * b.toFloat)

def div (a b : Double) : Double := ofFloat (a.toFloat / b.toFloat)

def ofNat (n : Nat) : Double := ofFloat (Float.ofScientific n false 0)

def ofInt (i : Int) : Double := if i < 0 then (ofNat i.natAbs).negate else ofNat i.natAbs

def powerOfTen (n : Nat) : Double := ofFloat (Float.ofScientific 1 false n)

/-- `x * 10 ^ e` by one rounded product or quotient with at most `10 ^ 308` at a time.
Refuses a result beyond the finite doubles. -/
def scale (x : Double) (e : Int) : Option Double :=
  if e.natAbs ≤ 308 then
    if 0 ≤ e then
      let y := x.mul (powerOfTen e.natAbs)
      if y.isInfinite then none else some y
    else some (x.div (powerOfTen e.natAbs))
  else if x.isZero then some x
  else if 0 ≤ e then none
  else scale (x.div (powerOfTen 308)) (e + 308)
termination_by e.natAbs
decreasing_by omega

/-- The double nearest to `m * 10 ^ e`. Exponents far outside the range are settled without
forming the power. -/
def nearest (m : Nat) (e : Int) : Double :=
  let lead := e + (Nat.toDigits 10 m).length
  if m = 0 ∨ lead < -330 then zero
  else if 310 < lead then infinity
  else ofFloat (Float.ofScientific m (decide (e < 0)) e.natAbs)

def parts (d : Double) : Nat × Int :=
  let e : Nat := d.magnitude / Nat.pow 2 52
  let f : Nat := d.magnitude % Nat.pow 2 52
  if e = 0 then (f, -1074) else (Nat.pow 2 52 + f, (e : Int) - 1075)

/-- The nearest natural number below `2 ^ 64`, halves upwards. Negative numbers and NaN give 0,
larger numbers the last one. -/
def roundToNat (d : Double) : Nat :=
  if d.isNaN || d.negative then 0
  else if d.isInfinite then UInt64.size - 1
  else
    let (m, q) := d.parts
    let n := if 0 ≤ q then m * Nat.pow 2 q.natAbs else (2 * m + Nat.pow 2 q.natAbs) / Nat.pow 2 (q.natAbs + 1)
    min n (UInt64.size - 1)

end Double

end AccessControl
