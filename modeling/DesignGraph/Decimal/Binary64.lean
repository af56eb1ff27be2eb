/-! # Binary floating-point numbers

A floating-point number is kept as its 64 bits, so that two numbers are equal exactly when they are the
same. A finite one is `m * 2 ^ q` up to its sign. All numbers that lie between the two midpoints to its
neighbours round to it, the midpoints included if `m` is even (`Interval`). -/

namespace DesignGraph.Decimal

/-- A floating-point number of double precision, by its bits. -/
structure Binary64 where
  bits : UInt64
  deriving DecidableEq, Repr

namespace Binary64

/-- The number with the bits of a machine number. -/
def ofFloat (x : Float) : Binary64 := ⟨x.toBits⟩

/-- The machine number. -/
def toFloat (x : Binary64) : Float := Float.ofBits x.bits

/-- The sign bit. -/
def isNegative (x : Binary64) : Bool := Nat.pow 2 63 ≤ x.bits.toNat

/-- The eleven bits of the exponent. -/
def exponentBits (x : Binary64) : Nat := x.bits.toNat / Nat.pow 2 52 % Nat.pow 2 11

/-- The fifty-two bits of the fraction. -/
def fractionBits (x : Binary64) : Nat := x.bits.toNat % Nat.pow 2 52

/-- The factor `m` of a finite number `m * 2 ^ q`. -/
def significand (x : Binary64) : Nat :=
  if x.exponentBits = 0 then x.fractionBits else Nat.pow 2 52 + x.fractionBits

/-- The exponent `q` of a finite number `m * 2 ^ q`. -/
def exponent (x : Binary64) : Int :=
  if x.exponentBits = 0 then -1074 else (x.exponentBits : Int) - 1075

/-- Zero with either sign. -/
def isZero (x : Binary64) : Bool := x.bits.toNat % Nat.pow 2 63 = 0

/-- Infinity with either sign, or no number. -/
def isUnbounded (x : Binary64) : Bool := x.exponentBits = 2047

/-- No number. -/
def isNan (x : Binary64) : Bool := x.isUnbounded && x.fractionBits ≠ 0

/-- The integer that the number is equal to, if it is one. -/
def int? (x : Binary64) : Option Int :=
  if x.isUnbounded then none
  else
    let signed := fun (n : Nat) => if x.isNegative then -(n : Int) else (n : Int)
    let scale := Nat.pow 2 (-x.exponent).toNat
    if 0 ≤ x.exponent then some (signed (x.significand * Nat.pow 2 x.exponent.toNat))
    else if x.significand % scale = 0 then some (signed (x.significand / scale))
    else none

end Binary64

/-- The numbers that round to a value, all in units of `2 ^ exponent`. -/
structure Interval where
  low : Nat
  value : Nat
  high : Nat
  exponent : Int
  /-- Whether the two ends round to the value as well. -/
  closed : Bool
  deriving DecidableEq, Repr

/-- The numbers that round to a finite number that is not zero. The lower neighbour of a power of two is
only half as far away as the upper one. -/
def Binary64.interval (x : Binary64) : Interval :=
  let m := x.significand
  let narrow := x.fractionBits = 0 && 1 < x.exponentBits
  { low := 4 * m - (if narrow then 1 else 2)
    value := 4 * m
    high := 4 * m + 2
    exponent := x.exponent - 2
    closed := m % 2 = 0 }

end DesignGraph.Decimal
