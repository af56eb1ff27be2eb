import DesignGraph.Text.Parts

/-! # Paths

A path is relative to the working directory, or starts at a root. Empty parts and points in its text mean
nothing and are left out; two points are kept, since what they lead to is seen only when the path is
followed. The path without parts is the working directory, written as a point.

Nothing can have a path with the character zero, and neither a path nor a part of it can be of any length
(`Path.isNameable`, `Path.isOverlong`, `Path.isOverlongPart`). -/

namespace DesignGraph.Storage

/-- A path: what it starts with, if it does not start in the working directory, and its parts. -/
structure Path where
  root : String
  parts : List String
  deriving DecidableEq, Repr

namespace Path

/-- What a text starts with in front of its parts. Two slashes, but not more, are kept. -/
def rootOf (text : List Char) : String :=
  match (text.takeWhile (· == '/')).length with
  | 0 => ""
  | 2 => "//"
  | _ => "/"

/-- The path that a text names. -/
def ofText (text : String) : Path :=
  let chars := text.toList
  ⟨rootOf chars,
    ((Text.partsBetween '/' chars).map String.ofList).filter fun p => p != "" && p != "."⟩

/-- The text of a path. -/
def text (p : Path) : String :=
  if p.root == "" && p.parts.isEmpty then "." else p.root ++ "/".intercalate p.parts

/-- Whether something can have the path. -/
def isNameable (p : Path) : Bool := !p.text.toList.contains '\x00'

/-- The most bytes of a path. -/
def maxBytes : Nat := 4095

/-- The most bytes of a part of a path. -/
def maxPartBytes : Nat := 255

/-- Whether a path is too long to be followed. -/
def isOverlong (p : Path) : Bool := maxBytes < p.text.utf8ByteSize

/-- Whether a part of a path is too long for anything in a directory. -/
def isOverlongPart (part : String) : Bool := maxPartBytes < part.utf8ByteSize

end Path

end DesignGraph.Storage
