import DesignGraph.Yaml.Token.Plain

/-! # Block text

Block text starts with a bar or an angle bracket, an optional digit for its indentation and an optional
sign for the ends of lines at its end: a plus keeps them all, a minus none, and without a sign one is
kept. Behind a bar lines are kept as they are; behind an angle bracket a single end of line between two
lines that do not start with a blank becomes a space. -/

namespace DesignGraph.Yaml

/-- Which ends of lines at the end of block text are kept. -/
inductive Chomping where
  | strip
  | clip
  | keep
  deriving DecidableEq, Repr

/-- The sign for ends of lines, if there is one. -/
def takeChomping (c : Cursor) : Option Chomping × Cursor :=
  if c.char == '+' then (some .keep, c.next)
  else if c.char == '-' then (some .strip, c.next)
  else (none, c)

/-- The digit for the indentation, if there is one; zero is none. -/
def takeIncrement (c : Cursor) : Except Fault (Option Nat × Cursor) :=
  if c.char.isDigit then
    if c.char == '0' then .error .malformed else .ok (some (c.char.toNat - 48), c.next)
  else .ok (none, c)

/-- Spaces and a comment up to the end of the line, and that end. -/
def endOfLine (c : Cursor) : Except Fault Cursor :=
  let c := c.skipSpaces.skipComment
  if isBreakOrEnd c.char then .ok ((c.takeBreak.map (·.2)).getD c) else .error c.fault

/-- What stands behind the first character of block text on its line. -/
def blockHeader (c : Cursor) : Except Fault (Chomping × Option Nat × Cursor) := do
  let (chomping, c) := takeChomping c
  let (increment, c) ← takeIncrement c
  let (chomping, c) := if chomping.isNone then takeChomping c else (chomping, c)
  if c.char == ' ' || isBreakOrEnd c.char then
    return (chomping.getD .clip, increment, ← endOfLine c)
  else throw c.fault

/-- Empty lines in front of block text without a digit: their ends, the largest column reached, and the
place behind them. -/
def blockIndentation : Nat → Nat → Cursor → List Char × Nat × Cursor
  | 0, widest, c => ([], widest, c)
  | n + 1, widest, c =>
    if c.char == ' ' then blockIndentation n (max widest c.next.column) c.next
    else match c.takeBreak with
      | none => ([], widest, c)
      | some (b, c) =>
        let (breaks, widest, c) := blockIndentation n widest c
        (b :: breaks, widest, c)

/-- The place behind spaces up to a column. -/
def skipIndent : Nat → Nat → Cursor → Cursor
  | 0, _, c => c
  | n + 1, indent, c =>
    if c.column < indent && c.char == ' ' then skipIndent n indent c.next else c

/-- Empty lines of block text: their ends, and the place behind them. -/
def blockBreaks : Nat → Nat → Cursor → List Char × Cursor
  | 0, _, c => ([], c)
  | n + 1, indent, c =>
    let c := skipIndent indent indent c
    match c.takeBreak with
    | none => ([], c)
    | some (b, c) =>
      let (breaks, c) := blockBreaks n indent c
      (b :: breaks, c)

/-- Whether a line starts with a blank. -/
def startsBlank (c : Cursor) : Bool := c.char == ' ' || c.char == '\t'

/-- The lines of block text. `breaks` are the ends of lines read in front; they, and the end of the last
line, are left to the caller if no further line follows. -/
def blockLines (folded : Bool) (indent : Nat) : Nat → List Char → Option Char → Cursor →
    List Char × List Char × Option Char × Cursor
  | 0, breaks, last, c => ([], breaks, last, c)
  | n + 1, breaks, last, c =>
    if c.column ≠ indent || c.rest.isEmpty then ([], breaks, last, c)
    else
      let blank := startsBlank c
      let (line, c) := c.span (!isBreak ·)
      let (last, c) := match c.takeBreak with
        | some (b, c) => (some b, c)
        | none => (none, c)
      let (after, c) := blockBreaks c.size indent c
      if c.column ≠ indent || c.rest.isEmpty then (breaks ++ line, after, last, c)
      else
        let joint :=
          if folded && last == some '\n' && !blank && !startsBlank c then
            if after.isEmpty then [' '] else []
          else last.toList
        let (more, rest) := blockLines folded indent n after last c
        (breaks ++ line ++ joint ++ more, rest)

/-- Block text from its first character on; `enclosing` is the indentation of what holds it, with −1 for
the whole document. -/
def blockScalar (folded : Bool) (enclosing : Int) (c : Cursor) : Except Fault (List Char × Cursor) := do
  let (chomping, increment, c) ← blockHeader c.next
  let least := max 1 (enclosing + 1).toNat
  let (breaks, indent, c) := match increment with
    | none =>
      let (breaks, widest, c) := blockIndentation c.size 0 c
      (breaks, max least widest, c)
    | some n =>
      let indent := least + n - 1
      let (breaks, c) := blockBreaks (c.size + 1) indent c
      (breaks, indent, c)
  let (text, breaks, last, c) := blockLines folded indent (c.size + 1) breaks none c
  let tail := match chomping with
    | .strip => []
    | .clip => last.toList
    | .keep => last.toList ++ breaks
  return (text ++ tail, c)

end DesignGraph.Yaml
