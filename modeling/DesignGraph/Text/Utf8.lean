import DesignGraph.Text.Hex

/-! # UTF-8

`encodeUtf8` turns text into bytes. `decodeUtf8` turns bytes into text or gives the first place where they are
no UTF-8: the place, whether a byte cannot start a character, a continuation is wrong, or the data ends inside
a character, and the bytes that are at fault. -/

namespace DesignGraph.Text

/-- The bytes of a text. -/
def encodeUtf8 (text : String) : List UInt8 := text.toUTF8.data.toList

/-- What is wrong at a place of the data. -/
inductive Utf8Problem where
  /-- A byte that starts no character. -/
  | invalidStart
  /-- A continuation byte that is missing or out of range. -/
  | invalidContinuation
  /-- The data ends inside a character. -/
  | unexpectedEnd
  deriving DecidableEq, Repr

/-- A place where the data is no UTF-8: the position, how many bytes are at fault, the first of them, and
the problem. -/
structure Utf8Error where
  position : Nat
  length : Nat
  byte : UInt8
  problem : Utf8Problem
  deriving DecidableEq, Repr

/-- The wording of a problem. -/
def Utf8Problem.message : Utf8Problem → String
  | invalidStart => "invalid start byte"
  | invalidContinuation => "invalid continuation byte"
  | unexpectedEnd => "unexpected end of data"

/-- The wording of what is wrong with the data. -/
def Utf8Error.message (e : Utf8Error) : String :=
  let place :=
    if e.length = 1 then
      "byte 0x" ++ String.ofList (hexLower 2 e.byte.toNat) ++ " in position " ++ toString e.position
    else
      "bytes in position " ++ toString e.position ++ "-" ++ toString (e.position + e.length - 1)
  "'utf-8' codec can't decode " ++ place ++ ": " ++ e.problem.message

/-- The form of a character by its first byte: how many continuation bytes follow, the least and the
greatest value of the first of them, and the bits that the first byte contributes. -/
def utf8Form? (b : UInt8) : Option (Nat × UInt8 × UInt8 × Nat) :=
  if b < 0x80 then some (0, 0x80, 0xbf, b.toNat)
  else if b < 0xc2 then none
  else if b < 0xe0 then some (1, 0x80, 0xbf, b.toNat - 0xc0)
  else if b < 0xf0 then
    some (2, if b = 0xe0 then 0xa0 else 0x80, if b = 0xed then 0x9f else 0xbf, b.toNat - 0xe0)
  else if b < 0xf5 then
    some (3, if b = 0xf0 then 0x90 else 0x80, if b = 0xf4 then 0x8f else 0xbf, b.toNat - 0xf0)
  else none

/-- Continuation bytes: the code point with the bits added, or how many were good before the problem. -/
def utf8Continue : (count : Nat) → (least greatest : UInt8) → (good code : Nat) → List UInt8 →
    Except (Nat × Utf8Problem) (Nat × List UInt8)
  | 0, _, _, _, code, bytes => .ok (code, bytes)
  | _ + 1, _, _, good, _, [] => .error (good, .unexpectedEnd)
  | n + 1, least, greatest, good, code, b :: bytes =>
    if least ≤ b ∧ b ≤ greatest then
      utf8Continue n 0x80 0xbf (good + 1) (64 * code + (b.toNat - 0x80)) bytes
    else .error (good, .invalidContinuation)

/-- The text of bytes that start at a position; at most `n` characters are read. -/
def decodeUtf8From : Nat → Nat → List UInt8 → Except Utf8Error (List Char)
  | 0, _, _ => .ok []
  | _ + 1, _, [] => .ok []
  | n + 1, position, b :: bytes =>
    match utf8Form? b with
    | none => .error ⟨position, 1, b, .invalidStart⟩
    | some (count, least, greatest, code) =>
      match utf8Continue count least greatest 0 code bytes with
      | .error (good, problem) => .error ⟨position, good + 1, b, problem⟩
      | .ok (code, rest) => do
        let text ← decodeUtf8From n (position + count + 1) rest
        return Char.ofNat code :: text

/-- The text of bytes. -/
def decodeUtf8 (bytes : List UInt8) : Except Utf8Error (List Char) :=
  decodeUtf8From bytes.length 0 bytes

/-- The number of bytes at the end of the data that start a character without ending it. -/
def unfinished (bytes : List UInt8) : Nat :=
  match decodeUtf8 bytes with
  | .error ⟨position, _, _, .unexpectedEnd⟩ => bytes.length - position
  | _ => 0

/-- Text with a line feed for every end of line that is a carriage return, with or without a line feed
behind it. -/
def unifyLineEnds : List Char → List Char
  | [] => []
  | '\r' :: '\n' :: r => '\n' :: unifyLineEnds r
  | '\r' :: r => '\n' :: unifyLineEnds r
  | c :: r => c :: unifyLineEnds r

end DesignGraph.Text
