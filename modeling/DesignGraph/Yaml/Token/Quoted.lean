import DesignGraph.Text.Hex
import DesignGraph.Yaml.Letters
import DesignGraph.Yaml.Token.Plain

/-! # Text between quotes

Between single quotes a quote is written twice and all else stands for itself. Between double quotes a
backslash starts an escape: a letter for one character, a code point in two, four or eight hexadecimal
digits, which need not be that of a character, or an end of line that is left out. Ends of lines are folded
as in plain text, without the blanks around them, and a document mark must not start a line. -/

namespace DesignGraph.Yaml

/-- The escapes of one letter. -/
def escapedChars : List (Char × Char) := [
  ('0', '\x00'), ('a', '\x07'), ('b', '\x08'), ('t', '\t'), ('\t', '\t'), ('n', '\n'), ('v', '\x0b'),
  ('f', '\x0c'), ('r', '\r'), ('e', '\x1b'), (' ', ' '), ('"', '"'), ('\\', '\\'), ('/', '/'),
  ('N', '\u0085'), ('_', '\u00a0'), ('L', '\u2028'), ('P', '\u2029')]

/-- The number of digits behind the letter of a numeric escape. -/
def escapeWidth? : Char → Option Nat
  | 'x' => some 2
  | 'u' => some 4
  | 'U' => some 8
  | _ => none

/-- A number as a code point. -/
def codePoint (n : Nat) : Except Fault Nat :=
  if n < 0x110000 then .ok n
  else if n < 0x80000000 then .error (.badValue .codePoint)
  else .error (.badValue .codePointWord)

/-- Ends of lines with the blanks between and behind them; a line must not start with a document mark. -/
def quotedBreaks : Nat → Cursor → Except Fault (List Char × Cursor)
  | 0, c => .ok ([], c)
  | n + 1, c =>
    if c.atDocumentMark then .error (c.advance 3).fault
    else
      let c := c.skip fun ch => ch == ' ' || ch == '\t'
      match c.takeBreak with
      | none => .ok ([], c)
      | some (b, c) => do
        let (breaks, c) ← quotedBreaks n c
        return (b :: breaks, c)

/-- Blanks and ends of lines between quotes, as they are kept. -/
def quotedSpaces (c : Cursor) : Except Fault (List Char × Cursor) :=
  let (spaces, c) := c.span fun ch => ch == ' ' || ch == '\t'
  if c.rest.isEmpty then .error c.fault
  else match c.takeBreak with
    | none => .ok (spaces, c)
    | some (b, c) => do
      let (breaks, c) ← quotedBreaks (c.size + 1) c
      return (foldBreaks b breaks, c)

/-- Characters with their code points. -/
def withPoints (read : List Char × Cursor) : List Nat × Cursor := (read.1.map Char.toNat, read.2)

/-- The escape behind a backslash, as code points. -/
def quotedEscape (c : Cursor) : Except Fault (List Nat × Cursor) :=
  let ch := c.char
  match escapedChars.lookup ch with
  | some d => .ok ([d.toNat], c.next)
  | none =>
    match escapeWidth? ch with
    | some width =>
      match Text.hexNumberOf? width c.next.rest with
      | none => .error (c.next.skip Text.isHexDigit).fault
      | some n => do return ([← codePoint n], c.advance (width + 1))
    | none =>
      match c.takeBreak with
      | none => .error c.fault
      | some (_, c) => withPoints <$> quotedBreaks (c.size + 1) c

/-- Text without blanks between quotes, as code points. -/
def quotedWord (double : Bool) : Nat → Cursor → Except Fault (List Nat × Cursor)
  | 0, c => .ok ([], c)
  | n + 1, c =>
    let ch := c.char
    let keep := fun (kept : List Nat) (c : Cursor) => do
      let (more, c) ← quotedWord double n c
      return (kept ++ more, c)
    if isSeparator ch then .ok ([], c)
    else if ch == '\x27' && !double then
      if c.charAt 1 == '\x27' then keep [0x27] (c.advance 2) else .ok ([], c)
    else if ch == '"' && double then .ok ([], c)
    else if ch == '\\' && double then do
      let (kept, c) ← quotedEscape c.next
      keep kept c
    else keep [ch.toNat] c.next

/-- The code points up to the closing quote, and the place behind it. -/
def quotedRest (double : Bool) : Nat → Cursor → Except Fault (List Nat × Cursor)
  | 0, _ => .error .malformed
  | n + 1, c => do
    let (word, c) ← quotedWord double (c.size + 1) c
    if c.char == (if double then '"' else '\x27') then return (word, c.next)
    let (spaces, c) ← withPoints <$> quotedSpaces c
    let (more, c) ← quotedRest double n c
    return (word ++ spaces ++ more, c)

/-- A text between quotes, from its opening quote on. -/
def quotedScalar (double : Bool) (c : Cursor) : Except Fault (Letters × Cursor) := do
  let (points, c) ← quotedRest double (c.size + 1) c.next
  return (.ofPoints points, c)

end DesignGraph.Yaml
