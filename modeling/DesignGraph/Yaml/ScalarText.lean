import DesignGraph.Text.Hex
import DesignGraph.Yaml.Character
import DesignGraph.Yaml.Implicit

/-! # Writing a text scalar

A text is written plain if it can be, else between single quotes, else between double quotes with
escapes. `Form.of` says which: plain text must be taken for text and not for something else, must hold no
end of line, no indicator where one has a meaning, and no blank at either end; single quotes cannot hold
blanks next to an end of line or characters that need an escape.

Long text is folded: a single space behind column 80 is written as an end of line, and between single
quotes an end of line is written twice. `Layout` says where the text starts, how far continued lines are
indented and whether text may be folded at all. -/

namespace DesignGraph.Yaml

/-! ### What the characters allow -/

/-- A property of a character and its neighbours: the character before it, itself and the one behind it,
where zero stands for a neighbour that is not there. -/
abbrev Context3 := Char → Char → Char → Bool

/-- Whether a property holds at some place of a text. -/
def anyPlace (p : Context3) : Char → List Char → Bool
  | _, [] => false
  | before, c :: r => p before c (peek r) || anyPlace p c r

/-- A character that cannot be written without an escape. Other alphabets count as such unless `unicode`
is set; the byte order mark and the last code point always do. -/
def isSpecial (unicode : Bool) (c : Char) : Bool :=
  let n := c.toNat
  if c == '\n' || (0x20 ≤ n && n ≤ 0x7e) then false
  else !(unicode && n != 0xfeff && (n == 0x85 || (0xa0 ≤ n && n ≤ 0xfffd) || (0x10000 ≤ n && n < 0x10ffff)))

/-- An indicator that keeps a text from being plain when it stands in front. -/
def isLeadingIndicator (c next : Char) : Bool :=
  "#,[]\x7b\x7d&*!|>\x27\x22%@\x60".toList.contains c ||
    ((c == '?' || c == ':' || c == '-') && isSeparator next)

/-- An indicator that keeps a text from being plain when it stands further behind. -/
def isInnerIndicator : Context3 := fun before c next =>
  (c == ':' && isSeparator next) || (c == '#' && isSeparator before)

/-- Whether an indicator has a meaning somewhere in a text. -/
def hasIndicator (text : List Char) : Bool :=
  ['-', '-', '-'].isPrefixOf text || ['.', '.', '.'].isPrefixOf text ||
    match text with
    | [] => false
    | c :: r => isLeadingIndicator c (peek r) || anyPlace isInnerIndicator c r

/-- A blank or an end of line at the start or the end of a text. -/
def hasOuterBlank (text : List Char) : Bool :=
  let isBlank := fun c => c == ' ' || isLineEnd c
  text.head?.any isBlank || text.getLast?.any isBlank

/-- A space behind an end of line. -/
def spaceBehindBreak : Context3 := fun before c _ => isLineEnd before && c == ' '

/-- A space in front of an end of line. -/
def spaceBeforeBreak : Context3 := fun before c _ => before == ' ' && isLineEnd c

/-! ### The form -/

/-- How a text is written. -/
inductive Form where
  | plain
  | single
  | double
  deriving DecidableEq, Repr

/-- The form of a text. As a key, only text without ends of lines does without double quotes. -/
def Form.of (unicode isKey : Bool) (text : String) : Form :=
  let chars := text.toList
  let lined := chars.any isLineEnd
  let special := chars.any (isSpecial unicode) || anyPlace spaceBeforeBreak '\x00' chars
  if implicit text = .text && !special && !lined && !hasIndicator chars && !hasOuterBlank chars then
    .plain
  else if !special && !anyPlace spaceBehindBreak '\x00' chars && !(isKey && lined) then .single
  else .double

/-! ### Folding -/

/-- Where a text is written. -/
structure Layout where
  /-- The column behind what is written already. -/
  column : Nat
  /-- The indentation of continued lines. -/
  indent : Nat
  /-- Whether the text may be continued on another line. -/
  folds : Bool
  deriving DecidableEq, Repr

/-- The column from which on text is continued on the next line. -/
def bestWidth : Nat := 80

/-- The kinds of characters that folding tells apart. -/
inductive RunKind where
  | spaces
  | ends
  | word
  deriving DecidableEq, Repr

/-- The kind of a character. -/
def RunKind.of (c : Char) : RunKind :=
  if c == ' ' then .spaces else if isLineEnd c then .ends else .word

/-- A text as runs of characters of one kind. -/
def runs : List Char → List (RunKind × List Char)
  | [] => []
  | c :: r =>
    match runs r with
    | [] => [(.of c, [c])]
    | (k, run) :: rest =>
      if k = .of c then (k, c :: run) :: rest else (.of c, [c]) :: (k, run) :: rest

/-- A new line, indented. -/
def newLine (indent : Nat) : List Char := '\n' :: List.replicate indent ' '

/-- Runs of characters, folded: `inner` tells the runs behind the first one, and `write` how a word is
written. A single space between runs is where a long line is continued. -/
def foldRuns (layout : Layout) (write : List Char → List Char) :
    Nat → Bool → List (RunKind × List Char) → List Char
  | _, _, [] => []
  | column, inner, (kind, run) :: rest =>
    match kind with
    | .word =>
      let written := write run
      written ++ foldRuns layout write (column + written.length) true rest
    | .ends =>
      let ends := if run.head? = some '\n' then '\n' :: run else run
      ends ++ List.replicate layout.indent ' ' ++ foldRuns layout write layout.indent true rest
    | .spaces =>
      if run.length = 1 && column > bestWidth && layout.folds && inner && !rest.isEmpty then
        newLine layout.indent ++ foldRuns layout write layout.indent true rest
      else run ++ foldRuns layout write (column + run.length) true rest

/-- Plain text. -/
def writePlain (layout : Layout) (text : List Char) : List Char :=
  foldRuns layout id layout.column false (runs text)

/-- A single quote is written twice between single quotes. -/
def doubleQuotes (word : List Char) : List Char :=
  word.flatMap fun c => if c == '\x27' then [c, c] else [c]

/-- Text between single quotes. -/
def writeSingle (layout : Layout) (text : List Char) : List Char :=
  '\x27' :: foldRuns layout doubleQuotes (layout.column + 1) false (runs text) ++ ['\x27']

/-! ### Escapes -/

/-- The characters with an escape of one letter. -/
def letterEscapes : List (Char × Char) := [
  ('\x00', '0'), ('\x07', 'a'), ('\x08', 'b'), ('\x09', 't'), ('\x0a', 'n'), ('\x0b', 'v'),
  ('\x0c', 'f'), ('\x0d', 'r'), ('\x1b', 'e'), ('"', '"'), ('\\', '\\'), ('\u0085', 'N'),
  ('\u00a0', '_'), ('\u2028', 'L'), ('\u2029', 'P')]

/-- Whether a character stands for itself between double quotes. -/
def isUnescaped (unicode : Bool) (c : Char) : Bool :=
  let n := c.toNat
  if c == '"' || c == '\\' || isLineEnd c || n == 0xfeff then false
  else (0x20 ≤ n && n ≤ 0x7e) || (unicode && 0xa0 ≤ n && n ≤ 0xfffd)

/-- The escape of a character. -/
def escape (c : Char) : List Char :=
  match letterEscapes.lookup c with
  | some letter => ['\\', letter]
  | none =>
    let n := c.toNat
    if n ≤ 0xff then '\\' :: 'x' :: hexDigits 2 n
    else if n ≤ 0xffff then '\\' :: 'u' :: hexDigits 4 n
    else '\\' :: 'U' :: hexDigits 8 n
where
  /-- Digits with upper-case letters. -/
  hexDigits (width n : Nat) : List Char := Text.hexUpper width n

/-- The rest of a text between double quotes. `column` is the column of what is written already and
`pending` the characters that are not written yet, the last one first. Behind column 80 a line is
continued in front of a space, behind an escape and in front of what follows an escape, but neither at
the first nor at the last place; a space that starts the new line is escaped. -/
def writeEscaped (layout : Layout) (unicode : Bool) :
    (column : Nat) → (pending : List Char) → (first : Bool) → List Char → List Char
  | _, pending, _, [] => pending.reverse
  | column, pending, first, c :: r =>
    let inside := !first && layout.folds && 1 ≤ r.length
    let guardSpace := fun c => if c == ' ' then (['\\'], layout.indent + 1) else ([], layout.indent)
    if isUnescaped unicode c then
      if inside && (c == ' ' || pending.isEmpty) && column + pending.length > bestWidth then
        let (guarded, column) := guardSpace c
        pending.reverse ++ '\\' :: newLine layout.indent ++ guarded ++
          writeEscaped layout unicode column [c] false r
      else writeEscaped layout unicode column (c :: pending) false r
    else
      let written := pending.reverse ++ escape c
      let column := column + written.length
      if inside && column > bestWidth + 1 then
        let (guarded, column) := guardSpace (peek r)
        written ++ '\\' :: newLine layout.indent ++ guarded ++
          writeEscaped layout unicode column [] false r
      else written ++ writeEscaped layout unicode column [] false r

/-- Text between double quotes. -/
def writeDouble (layout : Layout) (unicode : Bool) (text : List Char) : List Char :=
  '"' :: writeEscaped layout unicode (layout.column + 1) [] true text ++ ['"']

/-- A text scalar in its form. -/
def writeText (layout : Layout) (unicode isKey : Bool) (text : String) : List Char :=
  match Form.of unicode isKey text with
  | .plain => writePlain layout text.toList
  | .single => writeSingle layout text.toList
  | .double => writeDouble layout unicode text.toList

end DesignGraph.Yaml
