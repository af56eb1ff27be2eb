import DesignGraph.Text.Utf8

/-! # Reading a file in portions

A file of text is read in portions of so many characters (`Portions.ofBytes`). Its bytes are fetched in
larger amounts and decoded as they come. What starts a character without ending it waits for further bytes,
and so does a carriage return, since it makes one end of line with a line feed behind it. Where bytes are no
text the reading ends, and the portion that asked for them is lost.

The position of an error counts within the bytes that were decoded together. -/

namespace DesignGraph.Text

/-- The portions that are read from a file, and why there are no more, if bytes are at fault. All but the
last one have the full length. -/
structure Portions where
  texts : List (List Char)
  fault? : Option Utf8Error

/-- A file that is being read. -/
structure PortionReader where
  /-- The bytes that have not been fetched. -/
  bytes : List UInt8
  /-- The fetched bytes that start a character without ending it. -/
  started : List UInt8
  /-- Whether a carriage return waits for a line feed. -/
  returned : Bool
  /-- The decoded characters that have not been read. -/
  ready : List Char
  /-- How many bytes were fetched last, and how many characters they gave. -/
  fetched : Nat × Nat

namespace PortionReader

/-- The start of a file. -/
def start (bytes : List UInt8) : PortionReader := ⟨bytes, [], false, [], (0, 0)⟩

/-- The least number of bytes that are fetched at a time. -/
def fetchSize : Nat := 8192

/-- Fetches bytes for some characters, as many as these would take if they took as many bytes as the last
ones, and decodes them. Nothing is fetched at the end of the file. -/
def fetch (r : PortionReader) (wanted : Nat) : Except Utf8Error PortionReader := do
  let size := max fetchSize (r.fetched.1 * wanted / r.fetched.2)
  let chunk := r.bytes.take size
  let atEnd := chunk.isEmpty
  let data := r.started ++ chunk
  let whole := data.length - if atEnd then 0 else unfinished data
  let decoded ← decodeUtf8 (data.take whole)
  let waits := r.returned && decoded.isEmpty && !atEnd
  let text := if r.returned && !waits then '\r' :: decoded else decoded
  let ends := !atEnd && text.getLast? == some '\r'
  let ready := unifyLineEnds (if ends then text.dropLast else text)
  return ⟨r.bytes.drop size, data.drop whole, waits || ends, ready, (chunk.length, ready.length)⟩

/-- Reads so many characters, or fewer at the end of the file; at most `n` times bytes are fetched. -/
def read : Nat → Nat → PortionReader → Except Utf8Error (List Char × PortionReader)
  | 0, _, r => .ok ([], r)
  | n + 1, wanted, r =>
    let text := r.ready.take wanted
    let rest := { r with ready := r.ready.drop wanted }
    if text.length = wanted then .ok (text, rest)
    else do
      let r ← rest.fetch (wanted - text.length)
      if r.fetched = (0, 0) then return (text, r)
      let (more, r) ← read n (wanted - text.length) r
      return (text ++ more, r)

end PortionReader

namespace Portions

/-- The number of characters of a portion. -/
def length : Nat := 4096

/-- The portions that are left, at most `n`. -/
def ofReader : Nat → PortionReader → Portions
  | 0, _ => ⟨[], none⟩
  | n + 1, r =>
    match r.read (r.bytes.length + 2) length with
    | .error e => ⟨[], some e⟩
    | .ok ([], _) => ⟨[], none⟩
    | .ok (text, r) =>
      let later := ofReader n r
      { later with texts := text :: later.texts }

/-- The portions of the text that bytes encode. Each one takes a byte at least. -/
def ofBytes (bytes : List UInt8) : Portions := ofReader (bytes.length + 1) (.start bytes)

end Portions

end DesignGraph.Text
