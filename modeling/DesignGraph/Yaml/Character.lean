/-! # Characters of a document

The classes of characters that the markup language tells apart. A document consists of admissible
characters only; five characters end a line; blanks and the ends of lines separate tokens, and so does
the end of the text, for which the character zero stands where one character is looked at. -/

namespace DesignGraph.Yaml

/-- What may occur in a document. -/
def isAdmissible (c : Char) : Bool :=
  let n := c.toNat
  n == 0x09 || n == 0x0a || n == 0x0d || (0x20 ≤ n && n ≤ 0x7e) || n == 0x85 ||
    (0xa0 ≤ n && n ≤ 0xd7ff) || (0xe000 ≤ n && n ≤ 0xfffd) || 0x10000 ≤ n

/-- Ends of lines other than the carriage return. -/
def isLineEnd (c : Char) : Bool :=
  c == '\n' || c == '\u0085' || c == '\u2028' || c == '\u2029'

/-- Ends of lines. -/
def isBreak (c : Char) : Bool := c == '\r' || isLineEnd c

/-- Ends of lines, and the end of the text. -/
def isBreakOrEnd (c : Char) : Bool := c == '\x00' || isBreak c

/-- Blanks, ends of lines and the end of the text. -/
def isSeparator (c : Char) : Bool := c == ' ' || c == '\t' || isBreakOrEnd c

/-- The character that a text starts with; zero at its end. -/
def peek : List Char → Char
  | [] => '\x00'
  | c :: _ => c

/-- The character at a distance from the start of a text; zero past its end. -/
def peekAt (n : Nat) (text : List Char) : Char := peek (text.drop n)

/-- The number that decimal digits write. -/
def decimalNumber (digits : List Char) : Nat := digits.foldl (fun n c => 10 * n + (c.toNat - 48)) 0

end DesignGraph.Yaml
