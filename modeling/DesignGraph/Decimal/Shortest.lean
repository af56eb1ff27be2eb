import DesignGraph.Decimal.Binary64

/-! # Shortest decimals

A floating-point number is written with the fewest digits that read back as it: the multiples of
`10 ^ g` are tried for ever smaller `g` until one of the two next to the number rounds to it, of two the
nearer one, of two equally near the even one. Where the point stands is a decision of the written form
(`Numeral.text`): positional from `10 ^ -4` up to `10 ^ 16`, with an exponent of at least two digits
outside. -/

namespace DesignGraph.Decimal

/-- A decimal number `digits * 10 ^ exponent`. -/
structure Numeral where
  digits : Nat
  exponent : Int
  deriving DecidableEq, Repr

/-- `a * 2 ^ e` and `d * 10 ^ g` as natural numbers in a common unit. -/
def commonUnit (a : Nat) (e : Int) (d : Nat) (g : Int) : Nat × Nat :=
  (a * Nat.pow 2 e.toNat * Nat.pow 10 (-g).toNat, d * Nat.pow 10 g.toNat * Nat.pow 2 (-e).toNat)

namespace Interval

/-- Whether `d * 10 ^ g` rounds to the value. -/
def admits (i : Interval) (d : Nat) (g : Int) : Bool :=
  let (low, x) := commonUnit i.low i.exponent d g
  let (high, y) := commonUnit i.high i.exponent d g
  if i.closed then low ≤ x && y ≤ high else low < x && y < high

/-- The multiple of `10 ^ g` next below the value. -/
def below (i : Interval) (g : Int) : Nat :=
  let (value, unit) := commonUnit i.value i.exponent 1 g
  value / unit

/-- Whether the multiple `d` of `10 ^ g` is nearer to the value than the next one, or as near and even. -/
def prefersBelow (i : Interval) (d : Nat) (g : Int) : Bool :=
  let (value, x) := commonUnit i.value i.exponent d g
  let (_, y) := commonUnit i.value i.exponent (d + 1) g
  value - x < y - value || (value - x == y - value && d % 2 == 0)

/-- The multiple of `10 ^ g` that is nearest to the value among those that round to it. -/
def onGrid? (i : Interval) (g : Int) : Option Nat :=
  let d := i.below g
  match i.admits d g, i.admits (d + 1) g with
  | true, true => some (if i.prefersBelow d g then d else d + 1)
  | true, false => some d
  | false, true => some (d + 1)
  | false, false => none

/-- The first hit on the grids from `g` down, at most `n` of them. -/
def search (i : Interval) : Nat → Int → Numeral
  | 0, g => ⟨i.below g, g⟩
  | n + 1, g =>
    match i.onGrid? g with
    | some d => if d = 0 then search i n (g - 1) else ⟨d, g⟩
    | none => search i n (g - 1)

end Interval

/-- The shortest decimal of a finite number that is not zero. The largest number lies below `10 ^ 309`
and the smallest gap above `10 ^ -324`. -/
def shortest (x : Binary64) : Numeral := x.interval.search 640 309

namespace Numeral

/-- A decimal without a sign in its written form. -/
def text (d : Numeral) : List Char :=
  let digits := Nat.toDigits 10 d.digits
  let point : Int := digits.length + d.exponent
  if -4 < point && point ≤ 16 then
    if point ≤ 0 then '0' :: '.' :: List.replicate (-point).toNat '0' ++ digits
    else if digits.length ≤ point then
      digits ++ List.replicate (point.toNat - digits.length) '0' ++ ['.', '0']
    else digits.take point.toNat ++ '.' :: digits.drop point.toNat
  else
    let power := point - 1
    let powerDigits := Nat.toDigits 10 power.natAbs
    let mantissa := if digits.length = 1 then digits else digits.take 1 ++ '.' :: digits.drop 1
    mantissa ++ ['e', if power < 0 then '-' else '+'] ++
      List.replicate (2 - powerDigits.length) '0' ++ powerDigits

end Numeral

/-- The written form of a floating-point number. -/
def Binary64.text (x : Binary64) : String :=
  let sign := if x.isNegative then "-" else ""
  if x.isUnbounded then if x.fractionBits = 0 then sign ++ "inf" else "nan"
  else if x.isZero then sign ++ "0.0"
  else sign ++ String.ofList (shortest x).text

end DesignGraph.Decimal
