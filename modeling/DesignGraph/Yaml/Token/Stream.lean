import DesignGraph.Yaml.Token.Property
import DesignGraph.Yaml.Token.Quoted

/-! # Tokens of a document

`tokens` parts a text into tokens. Indentation becomes tokens of its own: a block collection starts where
something is indented further than what holds it and ends where the indentation falls back.

A key need not be announced by a question mark: whether a scalar was a key shows only at the colon behind
it. So wherever a key may start, its place is noted (`PossibleKey`), one for each depth of brackets, and
the colon puts the token of a key in front of what was noted. A noted key is given up at the end of its
line or after 1024 characters; where the indentation asks for a key, that is a fault.

A fault ends the list of tokens as a token of its own, so that a fault in the order of earlier tokens is
found first. Tokens behind a noted key are not out before the key is decided, so such a fault stands in
their place. A text that breaks off is at fault where a token comes to its end. -/

namespace DesignGraph.Yaml

/-- A token. -/
inductive Token where
  | directive (d : Directive)
  | documentStart
  | documentEnd
  | streamEnd
  | blockSequenceStart
  | blockMappingStart
  | blockEnd
  | flowSequenceStart
  | flowMappingStart
  | flowSequenceEnd
  | flowMappingEnd
  | flowEntry
  | blockEntry
  | key
  | value
  | alias (name : String)
  | anchor (name : String)
  | tag (t : TagText)
  | scalar (plain : Bool) (letters : Letters)
  | fault (f : Fault)
  deriving DecidableEq, Repr

/-- A place where a key may have started: how many tokens came before it, whether the indentation asks
for a key there, and the place. -/
structure PossibleKey where
  position : Nat
  required : Bool
  index : Nat
  line : Nat
  column : Nat

/-- A text that is being parted into tokens. -/
structure Lexer where
  cursor : Cursor
  /-- The tokens so far, the last one first, and their number. -/
  tokens : List Token
  count : Nat
  /-- The indentation of the block collection around, −1 outside of all. -/
  indent : Int
  /-- The indentations of the block collections further out. -/
  outer : List Int
  /-- The depth of brackets. -/
  depth : Nat
  /-- Whether a key may start here. -/
  keyAllowed : Bool
  /-- The noted keys with the depth of each. -/
  keys : List (Nat × PossibleKey)

namespace Lexer

/-- The start of a text. -/
def start (s : Stretch) : Lexer := ⟨.start s, [], 0, -1, [], 0, true, []⟩

/-- Adds a token. -/
def push (l : Lexer) (t : Token) : Lexer := { l with tokens := t :: l.tokens, count := l.count + 1 }

/-- Puts a token in front of the last tokens, so that `position` tokens come before it. -/
def insertAt (l : Lexer) (position : Nat) (t : Token) : Lexer :=
  let later := l.count - position
  { l with tokens := l.tokens.take later ++ t :: l.tokens.drop later, count := l.count + 1 }

/-! ### Noted keys -/

/-- A noted key that can no longer be one. -/
def isStale (l : Lexer) (k : Nat × PossibleKey) : Bool :=
  k.2.line ≠ l.cursor.line || l.cursor.index - k.2.index > 1024

/-- Gives up the noted keys that can no longer be keys. -/
def dropStale (l : Lexer) : Except Fault Lexer :=
  if l.keys.any fun k => l.isStale k && k.2.required then .error .malformed
  else .ok { l with keys := l.keys.filter fun k => !l.isStale k }

/-- Gives up the noted key at this depth. -/
def dropKey (l : Lexer) : Except Fault Lexer :=
  if l.keys.any fun k => k.1 == l.depth && k.2.required then .error .malformed
  else .ok { l with keys := l.keys.filter fun k => k.1 != l.depth }

/-- Notes that a key may start here. -/
def noteKey (l : Lexer) : Except Fault Lexer :=
  if l.keyAllowed then do
    let required := l.depth == 0 && l.indent == (l.cursor.column : Int)
    let l ← l.dropKey
    let c := l.cursor
    return { l with keys := (l.depth, ⟨l.count, required, c.index, c.line, c.column⟩) :: l.keys }
  else .ok l

/-! ### Indentation -/

/-- Ends the block collections that are indented further than a column. -/
def unwind (l : Lexer) (column : Int) : Lexer :=
  if l.depth ≠ 0 then l
  else
    let closing := (l.indent :: l.outer).takeWhile (· > column)
    let rest := (l.indent :: l.outer).drop closing.length
    let l := closing.foldl (fun l _ => l.push .blockEnd) l
    { l with indent := rest.headD (-1), outer := rest.tail }

/-- Whether a column is indented further than the block collection around; then it is the indentation of
a new one. -/
def indentTo (l : Lexer) (column : Nat) : Bool × Lexer :=
  if l.indent < column then (true, { l with indent := column, outer := l.indent :: l.outer })
  else (false, l)

/-- Starts a block collection here if the column is indented further, outside of brackets. -/
def openBlock (l : Lexer) (t : Token) : Except Fault Lexer :=
  if l.depth ≠ 0 then .ok l
  else if l.keyAllowed then
    let (isNew, l) := l.indentTo l.cursor.column
    .ok (if isNew then l.push t else l)
  else .error .malformed

/-! ### The tokens one by one -/

/-- Moves over characters and adds a token. -/
def take (l : Lexer) (n : Nat) (t : Token) : Lexer :=
  { l with cursor := l.cursor.advance n }.push t

/-- Blanks, comments and ends of lines up to the next token. Behind an end of line a key may start. -/
def skipToToken : Nat → Lexer → Lexer
  | 0, l => l
  | n + 1, l =>
    let c := if l.cursor.index == 0 && l.cursor.char == '\ufeff' then l.cursor.next else l.cursor
    let c := c.skipSpaces.skipComment
    match c.takeBreak with
    | none => { l with cursor := c }
    | some (_, c) => skipToToken n { l with cursor := c, keyAllowed := l.keyAllowed || l.depth == 0 }

/-- The end of the text. -/
def finish (l : Lexer) : Except Fault Lexer := do
  let l ← (l.unwind (-1)).dropKey
  return l.push .streamEnd

/-- Leaves all block collections in front of a directive or a document mark. -/
def leaveAll (l : Lexer) : Except Fault Lexer := do
  let l ← (l.unwind (-1)).dropKey
  return { l with keyAllowed := false }

/-- An opening bracket. -/
def openBracket (l : Lexer) (t : Token) : Except Fault Lexer := do
  let l ← l.noteKey
  return { l with depth := l.depth + 1, keyAllowed := true }.take 1 t

/-- A closing bracket. One without an opening bracket cannot stand in a document. -/
def closeBracket (l : Lexer) (t : Token) : Except Fault Lexer := do
  let l ← l.dropKey
  if l.depth = 0 then throw .malformed
  return { l with depth := l.depth - 1, keyAllowed := false }.take 1 t

/-- A comma. -/
def comma (l : Lexer) : Except Fault Lexer := do
  let l ← { l with keyAllowed := true }.dropKey
  return l.take 1 .flowEntry

/-- A hyphen in front of an item. -/
def dash (l : Lexer) : Except Fault Lexer := do
  let l ← l.openBlock .blockSequenceStart
  let l ← { l with keyAllowed := true }.dropKey
  return l.take 1 .blockEntry

/-- A question mark in front of a key. -/
def question (l : Lexer) : Except Fault Lexer := do
  let l ← l.openBlock .blockMappingStart
  let l ← { l with keyAllowed := l.depth == 0 }.dropKey
  return l.take 1 .key

/-- A colon: behind a noted key, or by itself. -/
def colon (l : Lexer) : Except Fault Lexer :=
  match l.keys.lookup l.depth with
  | some k =>
    let l := { l with keys := l.keys.filter fun k => k.1 != l.depth }.insertAt k.position .key
    let (isNew, l) := if l.depth = 0 then l.indentTo k.column else (false, l)
    let l := if isNew then l.insertAt k.position .blockMappingStart else l
    .ok ({ l with keyAllowed := false }.take 1 .value)
  | none => do
    let l ← l.openBlock .blockMappingStart
    let l ← { l with keyAllowed := l.depth == 0 }.dropKey
    return l.take 1 .value

/-- Something that may be a key, read by `read`. -/
def node {α : Type} (l : Lexer) (read : Cursor → Except Fault (α × Cursor)) (token : α → Token) :
    Except Fault Lexer := do
  let l ← l.noteKey
  let (a, cursor) ← read l.cursor
  return { l with cursor, keyAllowed := false }.push (token a)

/-- Plain text. A key may start behind it if it ended with a line. -/
def plain (l : Lexer) : Except Fault Lexer := do
  let l ← l.noteKey
  let (text, ended, cursor) := plainScalar (l.depth != 0) (l.indent + 1).toNat l.cursor
  return { l with cursor, keyAllowed := ended }.push (.scalar true (.text (String.ofList text)))

/-- Block text. -/
def block (l : Lexer) (folded : Bool) : Except Fault Lexer := do
  let l ← { l with keyAllowed := true }.dropKey
  let (text, cursor) ← blockScalar folded l.indent l.cursor
  return { l with cursor }.push (.scalar false (.text (String.ofList text)))

/-- Refuses hyphens or points that may start a document mark, if the text breaks off in them. -/
def wholeMark (l : Lexer) : Except Fault Unit :=
  let sign := l.cursor.char
  if l.cursor.column == 0 && (sign == '-' || sign == '.') && (l.cursor.rest.drop 3).isEmpty then
    (l.cursor.skip (· == sign)).unbroken
  else .ok ()

/-- Whether plain text can start here. -/
def startsPlain (l : Lexer) : Bool :=
  let ch := l.cursor.char
  !(isSeparator ch || "-?:,[]\x7b\x7d#&*!|>\x27\x22%@\x60".toList.contains ch) ||
    (!isSeparator (l.cursor.charAt 1) && (ch == '-' || (l.depth == 0 && (ch == '?' || ch == ':'))))

/-- The next token. -/
def next (l : Lexer) : Except Fault Lexer := do
  let l := l.skipToToken (l.cursor.size + 1)
  l.cursor.unbroken
  l.wholeMark
  let l ← l.dropStale
  let l := l.unwind l.cursor.column
  let ch := l.cursor.char
  let spaced := isSeparator (l.cursor.charAt 1)
  let marked := l.cursor.column == 0 && l.cursor.atDocumentMark
  let inBrackets := l.depth != 0
  if l.cursor.rest.isEmpty then l.finish
  else if ch == '%' && l.cursor.column == 0 then do
    let l ← l.leaveAll
    let (d, cursor) ← directive l.cursor
    return { l with cursor }.push (.directive d)
  else if ch == '-' && marked then do return (← l.leaveAll).take 3 .documentStart
  else if ch == '.' && marked then do return (← l.leaveAll).take 3 .documentEnd
  else if ch == '[' then l.openBracket .flowSequenceStart
  else if ch == '{' then l.openBracket .flowMappingStart
  else if ch == ']' then l.closeBracket .flowSequenceEnd
  else if ch == '}' then l.closeBracket .flowMappingEnd
  else if ch == ',' then l.comma
  else if ch == '-' && spaced then l.dash
  else if ch == '?' && (inBrackets || spaced) then l.question
  else if ch == ':' && (inBrackets || spaced) then l.colon
  else if ch == '*' then l.node anchorName .alias
  else if ch == '&' then l.node anchorName .anchor
  else if ch == '!' then l.node tagText .tag
  else if ch == '|' && !inBrackets then l.block false
  else if ch == '>' && !inBrackets then l.block true
  else if ch == '\x27' then l.node (quotedScalar false) (.scalar false)
  else if ch == '"' then l.node (quotedScalar true) (.scalar false)
  else if l.startsPlain then l.plain
  else throw l.cursor.next.fault

/-- The tokens in front of the first noted key. What follows it waits for the colon that tells whether
it is a key. -/
def settled (l : Lexer) : List Token :=
  let pending := (l.keys.filter fun k => !l.isStale k).map (·.2.position)
  l.tokens.drop (l.count - pending.foldl min l.count)

/-- All tokens from here on, the last one first; at most `n` steps are made. -/
def run : Nat → Lexer → List Token
  | 0, l => .fault .malformed :: l.tokens
  | n + 1, l =>
    let step := do
      let l ← l.next
      l.cursor.unbroken
      return l
    match step with
    | .error f => .fault f :: l.settled
    | .ok l =>
      match l.tokens with
      | .streamEnd :: _ => l.tokens
      | _ => run n l

end Lexer

/-- The tokens of a text. Every step but the last one reads a character. -/
def tokens (s : Stretch) : List Token := (Lexer.run (s.text.length + 1) (.start s)).reverse

end DesignGraph.Yaml
