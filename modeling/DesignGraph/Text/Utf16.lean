import DesignGraph.Text.Hex

/-! # Decoding UTF-16

A character is a unit of two bytes, or two units of which the first one is a high and the second one a low
surrogate. Which byte of a unit comes first is told by the first unit of a text, the byte order mark
(`utf16Mark?`), or by whoever reads it. -/

namespace DesignGraph.Text

/-- What is wrong at a place of the data. -/
inductive Utf16Problem where
  /-- A single byte at the end. -/
  | truncated
  /-- A high surrogate at the end. -/
  | unexpectedEnd
  /-- A low surrogate without a high one. -/
  | lowSurrogate
  /-- A high surrogate without a low one. -/
  | highSurrogate
  deriving DecidableEq, Repr

/-- A place where the data is no UTF-16: whether the high byte of a unit comes first, the position, how many
bytes are at fault, the first of them, and the problem. -/
structure Utf16Error where
  highFirst : Bool
  position : Nat
  length : Nat
  byte : UInt8
  problem : Utf16Problem
  deriving DecidableEq, Repr

/-- The wording of a problem. -/
def Utf16Problem.message : Utf16Problem → String
  | truncated => "truncated data"
  | unexpectedEnd => "unexpected end of data"
  | lowSurrogate => "illegal encoding"
  | highSurrogate => "illegal UTF-16 surrogate"

/-- The wording of what is wrong with the data. -/
def Utf16Error.message (e : Utf16Error) : String :=
  let place :=
    if e.length = 1 then
      "byte 0x" ++ String.ofList (hexLower 2 e.byte.toNat) ++ " in position " ++ toString e.position
    else
      "bytes in position " ++ toString e.position ++ "-" ++ toString (e.position + e.length - 1)
  "'utf-16-" ++ (if e.highFirst then "be" else "le") ++ "' codec can't decode " ++ place ++ ": " ++
    e.problem.message

/-- A unit of two bytes. -/
def utf16Unit (highFirst : Bool) (a b : UInt8) : Nat :=
  if highFirst then 256 * a.toNat + b.toNat else a.toNat + 256 * b.toNat

/-- Whether the high byte comes first, if a text starts with a mark that tells it. -/
def utf16Mark? : List UInt8 → Option Bool
  | 0xff :: 0xfe :: _ => some false
  | 0xfe :: 0xff :: _ => some true
  | _ => none

/-- The text of bytes from a position on. -/
def decodeUtf16From (highFirst : Bool) (position : Nat) : List UInt8 → Except Utf16Error (List Char)
  | [] => .ok []
  | [a] => .error ⟨highFirst, position, 1, a, .truncated⟩
  | a :: b :: r =>
    let u := utf16Unit highFirst a b
    if u < 0xd800 ∨ 0xe000 ≤ u then do
      return Char.ofNat u :: (← decodeUtf16From highFirst (position + 2) r)
    else if 0xdc00 ≤ u then .error ⟨highFirst, position, 2, a, .lowSurrogate⟩
    else match r with
      | c :: d :: r =>
        let v := utf16Unit highFirst c d
        if 0xdc00 ≤ v ∧ v < 0xe000 then do
          let code := 0x10000 + 0x400 * (u - 0xd800) + (v - 0xdc00)
          return Char.ofNat code :: (← decodeUtf16From highFirst (position + 4) r)
        else .error ⟨highFirst, position, 2, a, .highSurrogate⟩
      | r => .error ⟨highFirst, position, 2 + r.length, a, .unexpectedEnd⟩

/-- The text of bytes. -/
def decodeUtf16 (highFirst : Bool) (bytes : List UInt8) : Except Utf16Error (List Char) :=
  decodeUtf16From highFirst 0 bytes

end DesignGraph.Text
