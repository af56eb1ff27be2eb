import DesignGraph.Text.Utf8
import DesignGraph.Text.Utf16

/-! # Encodings by name

The text of a file is encoded in UTF-8, perhaps with a mark in front, in UTF-16, in ASCII, or with one byte for
each letter of the Latin alphabet. An encoding has several names, which are compared without regard to case
and to the signs in them. Some names are those of encodings that turn bytes into bytes, and not into text. -/

namespace DesignGraph.Text

/-- An encoding of text. -/
inductive Encoding where
  | utf8
  /-- UTF-8 where a byte order mark in front is left out. -/
  | markedUtf8
  /-- UTF-16, with the high byte of each unit first or last. -/
  | utf16 (highFirst : Bool)
  /-- UTF-16 with a mark in front that tells which byte of a unit comes first. -/
  | markedUtf16
  | latin
  /-- The Latin alphabet with a sign for the euro and letters for French. -/
  | latin9
  /-- The Latin alphabet with letters in the place of control characters. -/
  | western
  | ascii
  deriving DecidableEq, Repr

/-- Why bytes are no text in an encoding. -/
inductive DecodeError where
  | utf8 (e : Utf8Error)
  | utf16 (e : Utf16Error)
  /-- The mark in front is missing. -/
  | unmarked
  /-- A byte that is none of ASCII. -/
  | ascii (position : Nat) (byte : UInt8)
  /-- A byte that stands for no letter. -/
  | noLetter (position : Nat) (byte : UInt8)
  deriving DecidableEq, Repr

/-- The wording of a byte at a place that cannot be decoded. -/
def badByteMessage (codec : String) (position : Nat) (byte : UInt8) (why : String) : String :=
  "'" ++ codec ++ "' codec can't decode byte 0x" ++ String.ofList (hexLower 2 byte.toNat) ++
    " in position " ++ toString position ++ ": " ++ why

/-- The wording of what is wrong with bytes. -/
def DecodeError.message : DecodeError → String
  | utf8 e => e.message
  | utf16 e => e.message
  | unmarked => "UTF-16 stream does not start with BOM"
  | ascii position byte => badByteMessage "ascii" position byte "ordinal not in range(128)"
  | noLetter position byte => badByteMessage "charmap" position byte "character maps to <undefined>"

namespace Encoding

/-- The names of encodings. -/
def names : List (String × Encoding) := [
  ("utf_8", utf8), ("utf8", utf8), ("utf", utf8), ("u8", utf8), ("utf8_ucs2", utf8), ("utf8_ucs4", utf8),
  ("cp65001", utf8), ("utf_8_sig", markedUtf8), ("utf_16", markedUtf16), ("utf16", markedUtf16),
  ("u16", markedUtf16), ("utf_16_le", utf16 false), ("utf_16le", utf16 false),
  ("unicodelittleunmarked", utf16 false), ("utf_16_be", utf16 true), ("utf_16be", utf16 true),
  ("unicodebigunmarked", utf16 true), ("latin_1", latin), ("latin1", latin), ("latin", latin), ("l1", latin),
  ("iso_8859_1", latin), ("iso8859_1", latin), ("iso8859", latin), ("8859", latin), ("cp819", latin),
  ("ibm819", latin), ("csisolatin1", latin), ("iso_8859_1_1987", latin), ("iso_ir_100", latin),
  ("iso8859_15", latin9), ("iso_8859_15", latin9), ("latin9", latin9), ("l9", latin9), ("cp1252", western),
  ("1252", western), ("windows_1252", western), ("ascii", ascii), ("us_ascii", ascii), ("us", ascii),
  ("646", ascii), ("ansi_x3.4_1968", ascii), ("ansi_x3_4_1968", ascii), ("ansi_x3.4_1986", ascii),
  ("cp367", ascii), ("csascii", ascii), ("ibm367", ascii), ("iso646_us", ascii),
  ("iso_646.irv_1991", ascii), ("iso_ir_6", ascii)]

/-- The names of encodings of bytes as bytes. -/
def byteNames : List String := ["base64", "base_64", "base64_codec", "bz2", "bz2_codec", "hex", "hex_codec",
  "quopri", "quoted_printable", "quotedprintable", "quopri_codec", "rot13", "rot_13", "uu", "uu_codec", "zip",
  "zlib", "zlib_codec"]

/-- A name in lower case, where one underscore stands for all signs between two letters or digits. -/
def normalName (name : List Char) : String :=
  let isSign := fun (c : Char) => !(c.isAlphanum || c == '.')
  let kept := (name.map fun c => if isSign c then '_' else c.toLower).splitBy fun a b => (a == '_') == (b == '_')
  "_".intercalate ((kept.filter fun part => part.head? != some '_').map String.ofList)

/-- The encoding with a name. A point in a name that is unknown stands for an underscore. -/
def ofName? (name : String) : Option Encoding :=
  let name := normalName name.toList
  names.lookup name <|> names.lookup (name.map fun c => if c == '.' then '_' else c)

/-- Whether a name is that of an encoding of bytes as bytes. -/
def isByteName (name : String) : Bool := byteNames.contains (normalName name.toList)

/-- The letters in the place of control characters, from 0x80 on; none where there is zero. -/
def westernLetters : List Nat := [
  0x20ac, 0, 0x201a, 0x192, 0x201e, 0x2026, 0x2020, 0x2021, 0x2c6, 0x2030, 0x160, 0x2039, 0x152, 0, 0x17d, 0,
  0, 0x2018, 0x2019, 0x201c, 0x201d, 0x2022, 0x2013, 0x2014, 0x2dc, 0x2122, 0x161, 0x203a, 0x153, 0, 0x17e,
  0x178]

/-- The letter that a byte stands for. -/
def westernLetter? (b : UInt8) : Option Char :=
  let n := b.toNat
  let code := if 0x80 ≤ n && n < 0xa0 then westernLetters.getD (n - 0x80) 0 else n
  if code = 0 && n ≠ 0 then none else some (Char.ofNat code)

/-- The bytes that stand for other letters than in the Latin alphabet. -/
def latin9Letters : List (Nat × Nat) := [(0xa4, 0x20ac), (0xa6, 0x160), (0xa8, 0x161), (0xb4, 0x17d),
  (0xb8, 0x17e), (0xbc, 0x152), (0xbd, 0x153), (0xbe, 0x178)]

/-- Bytes that stand for a letter each. -/
def letters (letter? : UInt8 → Option Char) (refuse : Nat → UInt8 → DecodeError) (bytes : List UInt8) :
    Except DecodeError (List Char) :=
  match bytes.findIdx? fun b => (letter? b).isNone with
  | none => .ok (bytes.filterMap letter?)
  | some i => .error (refuse i (bytes.getD i 0))

/-- The byte order mark in UTF-8. -/
def utf8Mark : List UInt8 := [0xef, 0xbb, 0xbf]

/-- The text of bytes. A part of a mark alone is none. -/
def decode (e : Encoding) (bytes : List UInt8) : Except DecodeError (List Char) :=
  match e with
  | utf8 => (decodeUtf8 bytes).mapError .utf8
  | markedUtf8 =>
    let text := if utf8Mark.isPrefixOf bytes then bytes.drop utf8Mark.length else bytes
    if bytes.isPrefixOf utf8Mark then .ok [] else (decodeUtf8 text).mapError .utf8
  | utf16 highFirst => (decodeUtf16 highFirst bytes).mapError .utf16
  | markedUtf16 =>
    match utf16Mark? bytes with
    | some highFirst => ((decodeUtf16 highFirst bytes).map (·.drop 1)).mapError .utf16
    | none => do
      let text ← (decodeUtf16 false bytes).mapError .utf16
      if text.isEmpty then return [] else throw .unmarked
  | latin => letters (fun b => some (Char.ofNat b.toNat)) .noLetter bytes
  | latin9 =>
    letters (fun b => some (Char.ofNat ((latin9Letters.lookup b.toNat).getD b.toNat))) .noLetter bytes
  | western => letters westernLetter? .noLetter bytes
  | ascii => letters (fun b => if b < 0x80 then some (Char.ofNat b.toNat) else none) .ascii bytes

end Encoding

end DesignGraph.Text
