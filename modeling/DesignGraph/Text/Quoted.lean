import DesignGraph.Text.Hex
import DesignGraph.Text.Printable

/-! # Quoted text

Messages show a text between quotes: single ones, unless the text holds a single quote and no double one.
The backslash and the quote in use are written behind a backslash, line feed, carriage return and tab as
`\n`, `\r` and `\t`, and every other character that is not printable as `\x`, `\u` or `\U` with two, four
or eight hexadecimal digits.

Code points of which some are surrogates are no text, but are shown in the same way (`quotedPoints`). -/

namespace DesignGraph.Text

/-- The quote that a text is put into. -/
def quoteFor (text : List Char) : Char :=
  if text.contains '\x27' && !text.contains '"' then '"' else '\x27'

/-- The shortest of the three numeric escapes that can name a code point. -/
def numericEscape (n : Nat) : List Char :=
  if n < 0x100 then '\\' :: 'x' :: hexLower 2 n
  else if n < 0x10000 then '\\' :: 'u' :: hexLower 4 n
  else '\\' :: 'U' :: hexLower 8 n

/-- One character between quotes `q`. -/
def quotedChar (q c : Char) : List Char :=
  if c = q ∨ c = '\\' then ['\\', c]
  else if c = '\n' then ['\\', 'n']
  else if c = '\r' then ['\\', 'r']
  else if c = '\t' then ['\\', 't']
  else if isPrintable c then [c]
  else numericEscape c.toNat

/-- The text between its quotes. -/
def quoted (text : String) : String :=
  let q := quoteFor text.toList
  String.ofList (q :: text.toList.flatMap (quotedChar q) ++ [q])

/-- The character with a code point; surrogates are none. -/
def charOfPoint? (n : Nat) : Option Char := if n.isValidChar then some (Char.ofNat n) else none

/-- Code points between quotes. -/
def quotedPoints (points : List Nat) : String :=
  let q := quoteFor (points.filterMap charOfPoint?)
  String.ofList <|
    q :: points.flatMap (fun n => (charOfPoint? n).elim (numericEscape n) (quotedChar q)) ++ [q]

/-- Quoted texts in brackets, parted by commas. -/
def quotedList (texts : List String) : String := "[" ++ ", ".intercalate (texts.map quoted) ++ "]"

end DesignGraph.Text
