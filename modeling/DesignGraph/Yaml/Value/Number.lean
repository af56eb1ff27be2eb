import DesignGraph.Decimal.Binary64
import DesignGraph.Text.Digit
import DesignGraph.Text.Hex
import DesignGraph.Text.LowerCase
import DesignGraph.Text.Parts
import DesignGraph.Yaml.Fault

/-! # Numbers of a document

Integers are written in base two (`0b`), eight (a zero in front), sixteen (`0x`), ten, or sixty (colons
between the digits); floating-point numbers in base ten or sixty, with words for infinity and for what is
no number. Underscores may stand anywhere. `readInt` and `readFloat` read text that is said to be a
number, which it need not be. -/

namespace DesignGraph.Yaml

open Decimal (Binary64)

/-- Whether a text starts with a minus sign, and the text without a sign in front. -/
def takeSign : List Char → Bool × List Char
  | [] => (false, [])
  | c :: r => if c = '-' then (true, r) else if c = '+' then (false, r) else (false, c :: r)

/-- Text without underscores. -/
def withoutGaps (text : List Char) : List Char := text.filter (· != '_')

/-! ### Integers -/

/-- The letter that may stand behind a zero in front of the digits of a base. -/
def baseLetter? (base : Nat) : Option Char :=
  if base = 2 then some 'b' else if base = 8 then some 'o' else if base = 16 then some 'x' else none

/-- The digits of a base without what names the base. -/
def dropBase (base : Nat) : List Char → List Char
  | '0' :: c :: r => if baseLetter? base = some c.toLower then r else '0' :: c :: r
  | text => text

/-- The most decimal digits of an integer. -/
def maxDigits : Nat := 4300

/-- Whether a character is a digit of a base. -/
def isDigitIn (base : Nat) (c : Char) : Bool := (Text.hexValue? c).any (· < base)

/-- The number that digits of a base write. -/
def digitsNumber (base : Nat) (digits : List Char) : Nat :=
  digits.foldl (fun n c => base * n + (Text.hexValue? c).getD 0) 0

/-- An integer in a base, with an optional sign and blanks around it. That there are too many digits is
found first. -/
def intInBase (shown : List Char → String) (base : Nat) (text : List Char) : Except BadValue Int :=
  let (negative, unsigned) := takeSign (Text.asciiNumber text)
  let digits := dropBase base unsigned
  let length := (digits.takeWhile (isDigitIn base)).length
  if base = 10 ∧ maxDigits < length then .error (.longInteger length)
  else if digits.isEmpty ∨ length < digits.length then .error (.integer base (shown text))
  else
    let n := digitsNumber base digits
    .ok (if negative then -n else n)

/-- An integer without underscores and without a sign in front. -/
def unsignedInt (shown : List Char → String) (text : List Char) : Except BadValue Int :=
  match text with
  | [] => .error .emptyNumber
  | ['0'] => .ok 0
  | '0' :: 'b' :: r => intInBase shown 2 r
  | '0' :: 'x' :: r => intInBase shown 16 r
  | '0' :: _ => intInBase shown 8 text
  | _ =>
    if text.contains ':' then do
      let digits ← (Text.partsBetween ':' text).mapM (intInBase shown 10)
      return digits.foldl (fun n d => 60 * n + d) 0
    else intInBase shown 10 text

/-- Text that is said to be an integer; `shown` tells how a part of it is shown. -/
def readInt (shown : List Char → String) (text : List Char) : Except BadValue Int := do
  let digits := withoutGaps text
  if digits.isEmpty then throw .emptyNumber
  let (negative, unsigned) := takeSign digits
  let n ← unsignedInt shown unsigned
  return if negative then -n else n

/-! ### Floating-point numbers -/

/-- The nearest floating-point number to `digits * 10 ^ exponent`, where `length` is the number of digits.
What is out of range by far is decided by the place of the first digit. -/
def nearestFloat (digits length : Nat) (exponent : Int) : Float :=
  let magnitude := length + exponent
  if digits = 0 ∨ magnitude < -330 then 0.0
  else if 310 < magnitude then 1.0 / 0.0
  else if 0 ≤ exponent then Float.ofScientific digits false exponent.toNat
  else Float.ofScientific digits true (-exponent).toNat

/-- An exponent that ends the text: a letter, an optional sign and digits. -/
def exponentPart? : List Char → Option Int
  | [] => some 0
  | e :: r =>
    let (negative, digits) := takeSign r
    if (e = 'e' ∨ e = 'E') ∧ !digits.isEmpty ∧ digits.all Char.isDigit then
      let n : Int := digitsNumber 10 digits
      some (if negative then -n else n)
    else none

/-- A decimal number without a sign. -/
def unsignedDecimal? (text : List Char) : Option Float :=
  let whole := text.takeWhile Char.isDigit
  let rest := text.dropWhile Char.isDigit
  let (fraction, rest) := match rest with
    | '.' :: r => (r.takeWhile Char.isDigit, r.dropWhile Char.isDigit)
    | r => ([], r)
  if whole.isEmpty && fraction.isEmpty then none
  else do
    let exponent ← exponentPart? rest
    let digits := digitsNumber 10 (whole ++ fraction)
    return nearestFloat digits ((whole ++ fraction).dropWhile (· == '0')).length
      (exponent - fraction.length)

/-- A floating-point number in base ten, with an optional sign and blanks around it, or a word. -/
def decimalFloat (shown : List Char → String) (text : List Char) : Except BadValue Float :=
  let (negative, unsigned) := takeSign (Text.asciiNumber text)
  let word := String.ofList (unsigned.map Char.toLower)
  let value? :=
    if word = "inf" ∨ word = "infinity" then some (1.0 / 0.0)
    else if word = "nan" then some (0.0 / 0.0)
    else unsignedDecimal? unsigned
  match value? with
  | none => .error (.float (shown text))
  | some x => .ok (if negative then -x else x)

/-- The sum of digits in base sixty, the last one first, where the next one stands for that many times
`unit` and `sum` is what the digits before it come to. -/
def sumSixties (unit : Nat) (sum : Float) : List Float → Except BadValue Float
  | [] => .ok sum
  | d :: ds =>
    let place := nearestFloat unit (toString unit).length 0
    if place.isInf then .error .sixties else sumSixties (60 * unit) (sum + d * place) ds

/-- A floating-point number that is read; the word for no number is the same value wherever it stands. -/
inductive FloatReading where
  | number (x : Binary64)
  | word

/-- Text that is said to be a floating-point number; `shown` tells how a part of it is shown. -/
def readFloat (shown : List Char → String) (text : List Char) : Except BadValue FloatReading := do
  let digits := Text.lowerCaseText (withoutGaps text)
  if digits.isEmpty then throw .emptyNumber
  let (negative, unsigned) := takeSign digits
  if unsigned = ".nan".toList then return .word
  let x ←
    if unsigned = ".inf".toList then pure (1.0 / 0.0)
    else if unsigned.contains ':' then do
      let digits ← (Text.partsBetween ':' unsigned).mapM (decimalFloat shown)
      sumSixties 1 0.0 digits.reverse
    else decimalFloat shown unsigned
  return .number (.ofFloat (if negative then -x else x))

end DesignGraph.Yaml
