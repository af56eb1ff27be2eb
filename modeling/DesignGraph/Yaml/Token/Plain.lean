import DesignGraph.Yaml.Cursor

/-! # Plain text

Plain text goes on until a separator, a colon in front of one, or in brackets also a comma, a question
mark or a bracket. Lines are joined: one end of line between words becomes a space, of several the first
one is left out. The text ends at a comment, at a line that is not indented far enough, and at a document
mark. -/

namespace DesignGraph.Yaml

/-- Whether plain text stops at a character, given the one behind it. -/
def stopsPlain (inBrackets : Bool) (c next : Char) : Bool :=
  isSeparator c ||
    (c == ':' && (isSeparator next || (inBrackets && ",[]\x7b\x7d".toList.contains next))) ||
    (inBrackets && ",?[]\x7b\x7d".toList.contains c)

/-- Plain text without separators at the front of a text. -/
def plainWord (inBrackets : Bool) : List Char → List Char
  | [] => []
  | c :: r => if stopsPlain inBrackets c (peek r) then [] else c :: plainWord inBrackets r

/-- Ends of lines and spaces between them; nothing if a document mark follows one of these ends. -/
def plainBreaks : Nat → Cursor → Option (List Char) × Cursor
  | 0, c => (some [], c)
  | n + 1, c =>
    if c.char == ' ' then plainBreaks n c.next
    else match c.takeBreak with
      | none => (some [], c)
      | some (b, c) =>
        if c.atDocumentMark then (none, c)
        else
          let (breaks, c) := plainBreaks n c
          (breaks.map (b :: ·), c)

/-- What joins an end of line `b` and further ends behind it to text. -/
def foldBreaks (b : Char) (breaks : List Char) : List Char :=
  (if b != '\n' then [b] else if breaks.isEmpty then [' '] else []) ++ breaks

/-- The blanks behind plain text, as they are kept if the text goes on; whether they hold an end of line;
and the place behind them. -/
def plainSpaces (c : Cursor) : List Char × Bool × Cursor :=
  let (spaces, c) := c.span (· == ' ')
  match c.takeBreak with
  | none => (spaces, false, c)
  | some (b, c) =>
    if c.atDocumentMark then ([], true, c)
    else
      match plainBreaks c.size c with
      | (none, c) => ([], true, c)
      | (some breaks, c) => (foldBreaks b breaks, true, c)

/-- Plain text from here on, with the blanks in front of it; whether an end of line was read behind its
last word; and the place where reading stopped. -/
def plainRest (inBrackets : Bool) (indent : Nat) : Nat → List Char → Bool → Cursor →
    List Char × Bool × Cursor
  | 0, _, ended, c => ([], ended, c)
  | n + 1, blanks, ended, c =>
    let word := plainWord inBrackets c.rest
    if c.char == '#' || word.isEmpty then ([], ended, c)
    else
      let (spaces, ended, c) := plainSpaces (c.advance word.length)
      if spaces.isEmpty || c.char == '#' || (!inBrackets && c.column < indent) then
        (blanks ++ word, ended, c)
      else
        let (more, ended, c) := plainRest inBrackets indent n spaces ended c
        (blanks ++ word ++ more, ended, c)

/-- Plain text, whether an end of line was read behind it, and the place where reading stopped. -/
def plainScalar (inBrackets : Bool) (indent : Nat) (c : Cursor) : List Char × Bool × Cursor :=
  plainRest inBrackets indent c.size [] false c

end DesignGraph.Yaml
