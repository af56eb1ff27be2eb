/-! # Digits and blanks of all scripts

Numbers may be written with the decimal digits of any script and with the blanks of any script around
them. `digitValue?` gives the value of a decimal digit, a character of general category Nd in version
14.0 of the Unicode standard; in each script the ten digits follow one another, so the table of zeros
says all. A character is blank if it is white space or one of the separators between fields, groups,
records and units. -/

namespace DesignGraph.Text

/-- The code points of the digit zero in every script, in ascending order. -/
def zeroDigits : List Nat := [
  0x30, 0x660, 0x6f0, 0x7c0, 0x966, 0x9e6, 0xa66, 0xae6, 0xb66, 0xbe6, 0xc66, 0xce6, 0xd66, 0xde6,
  0xe50, 0xed0, 0xf20, 0x1040, 0x1090, 0x17e0, 0x1810, 0x1946, 0x19d0, 0x1a80, 0x1a90, 0x1b50,
  0x1bb0, 0x1c40, 0x1c50, 0xa620, 0xa8d0, 0xa900, 0xa9d0, 0xa9f0, 0xaa50, 0xabf0, 0xff10, 0x104a0,
  0x10d30, 0x11066, 0x110f0, 0x11136, 0x111d0, 0x112f0, 0x11450, 0x114d0, 0x11650, 0x116c0, 0x11730,
  0x118e0, 0x11950, 0x11c50, 0x11d50, 0x11da0, 0x16a60, 0x16ac0, 0x16b50, 0x1d7ce, 0x1d7d8, 0x1d7e2,
  0x1d7ec, 0x1d7f6, 0x1e140, 0x1e2f0, 0x1e950, 0x1fbf0]

/-- The value of a decimal digit of any script. -/
def digitValue? (c : Char) : Option Nat :=
  (zeroDigits.find? fun z => z ≤ c.toNat && c.toNat ≤ z + 9).map (c.toNat - ·)

/-- White space, and the separators of information. -/
def isBlank (c : Char) : Bool :=
  let n := c.toNat
  (0x09 ≤ n && n ≤ 0x0d) || (0x1c ≤ n && n ≤ 0x20) || n == 0x85 || n == 0xa0 || n == 0x1680 ||
    (0x2000 ≤ n && n ≤ 0x200a) || n == 0x2028 || n == 0x2029 || n == 0x202f || n == 0x205f || n == 0x3000

/-- Whether a text consists of blanks. -/
def isBlankText (text : String) : Bool := text.toList.all isBlank

/-- The text without the characters with a property at its two ends. -/
def trim (p : Char → Bool) (text : List Char) : List Char :=
  ((text.dropWhile p).reverse.dropWhile p).reverse

/-- Text of a number with the digits of all scripts made ASCII digits, and without the blanks around it.
The separators of information are no blanks here. -/
def asciiNumber (text : List Char) : List Char :=
  trim (fun c => isBlank c && !(0x1c ≤ c.toNat && c.toNat ≤ 0x1f)) <|
    text.map fun c => ((digitValue? c).map fun n => Char.ofNat (48 + n)).getD c

end DesignGraph.Text
