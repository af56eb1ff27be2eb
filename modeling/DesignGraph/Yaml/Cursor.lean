import DesignGraph.Yaml.Stretch

/-! # A place in a document

A `Cursor` is what is left of a text, with the place it starts at: how many characters came before, and
on which line and in which column it is. It keeps the size of the whole text, since no reading takes more
steps than there are characters. Reading moves it forward; `span` and `skip` move it over the
longest run of characters with a property, and `takeBreak` over one end of line.

Where a text breaks off, a reading that comes to its end fails for that reason and no other: `fault` is what
is wrong at a place where nothing fits, and `unbroken` refuses the place where a text breaks off. -/

namespace DesignGraph.Yaml

/-- The rest of a text and its place. -/
structure Cursor where
  rest : List Char
  index : Nat
  line : Nat
  column : Nat
  /-- The number of characters of the whole text. -/
  size : Nat
  /-- What is wrong behind the text, if it breaks off. -/
  broken? : Option Fault

namespace Cursor

/-- The start of a text. -/
def start (s : Stretch) : Cursor := ⟨s.text, 0, 0, 0, s.text.length, s.broken?⟩

/-- What is wrong at a place where nothing fits. -/
def fault (c : Cursor) : Fault := (if c.rest.isEmpty then c.broken? else none).getD .malformed

/-- Refuses the place where a text breaks off. -/
def unbroken (c : Cursor) : Except Fault Unit :=
  if c.rest.isEmpty then c.broken?.elim (.ok ()) .error else .ok ()

/-- The next character; zero at the end. -/
def char (c : Cursor) : Char := peek c.rest

/-- The character some way ahead; zero past the end. -/
def charAt (c : Cursor) (n : Nat) : Char := peekAt n c.rest

/-- One character further. The byte order mark takes no column, and a carriage return in front of a line
feed does not end the line yet. -/
def next (c : Cursor) : Cursor :=
  match c.rest with
  | [] => c
  | ch :: r =>
    if isLineEnd ch || (ch == '\r' && peek r != '\n') then
      { c with rest := r, index := c.index + 1, line := c.line + 1, column := 0 }
    else
      let column := if ch == '\ufeff' then c.column else c.column + 1
      { c with rest := r, index := c.index + 1, column }

/-- Some characters further. -/
def advance : Nat → Cursor → Cursor
  | 0, c => c
  | n + 1, c => advance n c.next

/-- The longest run of characters with a property, and the place behind it. -/
def span (c : Cursor) (p : Char → Bool) : List Char × Cursor :=
  let run := c.rest.takeWhile p
  (run, c.advance run.length)

/-- The place behind the longest run of characters with a property. -/
def skip (c : Cursor) (p : Char → Bool) : Cursor := (c.span p).2

/-- The place behind spaces. -/
def skipSpaces (c : Cursor) : Cursor := c.skip (· == ' ')

/-- The place behind a comment, if one starts here. -/
def skipComment (c : Cursor) : Cursor := if c.char == '#' then c.skip (!isBreak ·) else c

/-- An end of line as it is kept in text: the line and the paragraph separator stay what they are, all
others become a line feed. -/
def takeBreak (c : Cursor) : Option (Char × Cursor) :=
  let ch := c.char
  if ch == '\r' && c.charAt 1 == '\n' then some ('\n', c.advance 2)
  else if ch == '\r' || ch == '\n' || ch == '\u0085' then some ('\n', c.next)
  else if isBreak ch then some (ch, c.next)
  else none

/-- Whether the line here starts with three hyphens or three points and a separator. -/
def atDocumentMark (c : Cursor) : Bool :=
  (['-', '-', '-'].isPrefixOf c.rest || ['.', '.', '.'].isPrefixOf c.rest) && isSeparator (c.charAt 3)

end Cursor

end DesignGraph.Yaml
