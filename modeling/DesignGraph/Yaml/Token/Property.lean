import DesignGraph.Text.Hex
import DesignGraph.Text.Utf8
import DesignGraph.Yaml.Token.Block
import DesignGraph.Yaml.Value.Number

/-! # Names, tags and directives

An anchor or an alias is a name of ASCII letters, digits, hyphens and underscores. A tag is written in
full between angle brackets, or as a handle that stands for the beginning of tags and a suffix. A
directive in front of a document states the version of the language or declares a handle; directives of
other names are passed over. -/

namespace DesignGraph.Yaml

/-- The characters of names. -/
def isNameChar (c : Char) : Bool := c.isAlphanum || c == '-' || c == '_'

/-- A name of at least one character. -/
def takeName (c : Cursor) : Except Fault (String × Cursor) :=
  let (name, c) := c.span isNameChar
  if name.isEmpty then .error c.fault else .ok (String.ofList name, c)

/-- The name of an anchor or an alias behind its sign. -/
def anchorName (c : Cursor) : Except Fault (String × Cursor) := do
  let (name, c) ← takeName c.next
  if isSeparator c.char || "?:,]\x7d%@\x60".toList.contains c.char then return (name, c)
  else throw c.fault

/-! ### Tags -/

/-- A tag as it is written: a handle, if there is one, and the rest. -/
structure TagText where
  handle : Option String
  suffix : String
  deriving DecidableEq, Repr

/-- The characters of a tag. -/
def isTagChar (c : Char) : Bool := c.isAlphanum || "-;/?:@&=+$,_.!~*\x27()[]%".toList.contains c

/-- Bytes written as percent signs with two hexadecimal digits each. -/
def takeEscapedBytes : Nat → Cursor → Except Fault (List UInt8 × Cursor)
  | 0, c => .ok ([], c)
  | n + 1, c =>
    if c.char == '%' then
      match Text.hexNumberOf? 2 c.next.rest with
      | some b => do
        let (bytes, c) ← takeEscapedBytes n (c.advance 3)
        return (b.toUInt8 :: bytes, c)
      | none => .error (c.next.skip Text.isHexDigit).fault
    else .ok ([], c)

/-- The characters of a tag up to the first that is none. -/
def takeTagChars : Nat → Cursor → Except Fault (List Char × Cursor)
  | 0, c => .ok ([], c)
  | n + 1, c =>
    if c.char == '%' then do
      let (bytes, c) ← takeEscapedBytes c.size c
      match Text.decodeUtf8 bytes with
      | .error _ => .error .malformed
      | .ok text =>
        let (more, c) ← takeTagChars n c
        return (text ++ more, c)
    else if isTagChar c.char then do
      let (more, d) ← takeTagChars n c.next
      return (c.char :: more, d)
    else .ok ([], c)

/-- At least one character of a tag. -/
def takeTagText (c : Cursor) : Except Fault (String × Cursor) :=
  if isTagChar c.char then do
    let (text, c) ← takeTagChars c.size c
    return (String.ofList text, c)
  else .error c.fault

/-- A handle: one exclamation mark, or a name between two. -/
def takeHandle (c : Cursor) : Except Fault (String × Cursor) :=
  if c.char != '!' then .error c.fault
  else if c.charAt 1 == ' ' then .ok ("!", c.next)
  else
    let (name, d) := c.next.span isNameChar
    if d.char == '!' then .ok (String.ofList ('!' :: name ++ ['!']), d.next) else .error d.fault

/-- Whether the tag here has a second exclamation mark before it ends. -/
def hasHandle (c : Cursor) : Except Fault Bool := do
  let d := c.next.skip fun ch => !(ch == '!' || ch == ' ' || isBreak ch)
  d.unbroken
  return d.char == '!'

/-- A tag from its exclamation mark on. -/
def tagText (c : Cursor) : Except Fault (TagText × Cursor) := do
  let (tag, c) ←
    if c.charAt 1 == '<' then do
      let (suffix, c) ← takeTagText (c.advance 2)
      if c.char == '>' then pure (⟨none, suffix⟩, c.next) else throw c.fault
    else if isSeparator (c.charAt 1) then pure (⟨none, "!"⟩, c.next)
    else if ← hasHandle c then do
      let (handle, c) ← takeHandle c
      let (suffix, c) ← takeTagText c
      pure (⟨some handle, suffix⟩, c)
    else do
      let (suffix, c) ← takeTagText c.next
      pure (⟨some "!", suffix⟩, c)
  if c.char == ' ' || isBreakOrEnd c.char then return (tag, c) else throw c.fault

/-! ### Directives -/

/-- What is stated in front of a document. -/
inductive Directive where
  | version (major : Nat)
  | handle (handle beginning : String)
  | other
  deriving DecidableEq, Repr

/-- A number of at least one digit. -/
def takeNumber (c : Cursor) : Except Fault (Nat × Cursor) :=
  let (digits, c) := c.span Char.isDigit
  if digits.isEmpty then .error c.fault
  else if maxDigits < digits.length then .error (.badValue (.longInteger digits.length))
  else .ok (decimalNumber digits, c)

/-- Refuses a place where something else follows than a space or the end of the line. -/
def requireSpace (c : Cursor) : Except Fault Unit :=
  if c.char == ' ' || isBreakOrEnd c.char then .ok () else .error c.fault

/-- A directive from its percent sign on, with the line it stands on. -/
def directive (c : Cursor) : Except Fault (Directive × Cursor) := do
  let (name, c) ← takeName c.next
  requireSpace c
  let (found, c) ←
    if name = "YAML" then do
      let (major, c) ← takeNumber c.skipSpaces
      if c.char != '.' then throw c.fault
      let (_, c) ← takeNumber c.next
      requireSpace c
      pure (.version major, c)
    else if name = "TAG" then do
      let (handle, c) ← takeHandle c.skipSpaces
      if c.char != ' ' then throw c.fault
      let (beginning, c) ← takeTagText c.skipSpaces
      requireSpace c
      pure (.handle handle beginning, c)
    else pure (.other, c.skip (!isBreak ·))
  return (found, ← endOfLine c)

end DesignGraph.Yaml
