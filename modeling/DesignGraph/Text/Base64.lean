/-! # Base 64

Bytes written in base 64: four characters of six bits each make three bytes. Reading is lenient:
characters that are no digits are passed over, and reading stops where the padding completes a group of
four. Text that ends inside a group is refused. -/

namespace DesignGraph.Text

/-- The six bits of a character. -/
def sixBits? (c : Char) : Option Nat :=
  if c.isUpper then some (c.toNat - 65)
  else if c.isLower then some (c.toNat - 71)
  else if c.isDigit then some (c.toNat + 4)
  else if c = '+' then some 62
  else if c = '/' then some 63
  else none

/-- The bytes of the text from a place on. `place` is the place in the group of four, `left` the bits
that no byte holds yet, and `pads` the number of padding characters in a row. -/
def base64From : (place left pads : Nat) → List Char → Option (List UInt8)
  | place, _, _, [] => if place = 0 then some [] else none
  | place, left, pads, c :: r =>
    if c = '=' then
      if 2 ≤ place then
        if 4 ≤ place + pads + 1 then some [] else base64From place left (pads + 1) r
      else base64From place left pads r
    else match sixBits? c with
      | none => base64From place left pads r
      | some bits =>
        match place with
        | 0 => base64From 1 bits 0 r
        | 1 => (base64From 2 (bits % 16) 0 r).map ((4 * left + bits / 16).toUInt8 :: ·)
        | 2 => (base64From 3 (bits % 4) 0 r).map ((16 * left + bits / 4).toUInt8 :: ·)
        | _ => (base64From 0 0 0 r).map ((64 * left + bits).toUInt8 :: ·)

/-- The bytes that a text in base 64 stands for. -/
def base64? (text : List Char) : Option (List UInt8) := base64From 0 0 0 text

end DesignGraph.Text
