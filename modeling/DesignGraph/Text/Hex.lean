/-! # Hexadecimal digits of fixed width

A code point is written in an escape with a fixed number of hexadecimal digits, zeros in front. -/

namespace DesignGraph.Text

/-- At least `width` hexadecimal digits with lower-case letters. -/
def hexLower (width n : Nat) : List Char :=
  let digits := Nat.toDigits 16 n
  List.replicate (width - digits.length) '0' ++ digits

/-- At least `width` hexadecimal digits with upper-case letters. -/
def hexUpper (width n : Nat) : List Char := (hexLower width n).map Char.toUpper

/-- The value of a hexadecimal digit of either case. -/
def hexValue? (c : Char) : Option Nat :=
  if c.isDigit then some (c.toNat - 48)
  else if 'a' ≤ c ∧ c ≤ 'f' then some (c.toNat - 87)
  else if 'A' ≤ c ∧ c ≤ 'F' then some (c.toNat - 55)
  else none

/-- A hexadecimal digit of either case. -/
def isHexDigit (c : Char) : Bool := (hexValue? c).isSome

/-- The number that hexadecimal digits write, unless one of the characters is no digit. -/
def hexNumber? (digits : List Char) : Option Nat :=
  digits.foldl (fun n? c => n?.bind fun n => (hexValue? c).map fun d => 16 * n + d) (some 0)

/-- The number that so many hexadecimal digits write in front of a text. -/
def hexNumberOf? (width : Nat) (text : List Char) : Option Nat :=
  if (text.take width).length = width then hexNumber? (text.take width) else none

end DesignGraph.Text
