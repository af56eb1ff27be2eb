import DesignGraph.Storage.Found

/-! # A tree of files

A `Tree` holds all files and directories, each under the parts of its path from the root on, and the directory
in which a run works. `Tree.look` follows a path from the root or from the working directory: every part but
the last leads through a directory, and two points lead back to the directory around, from the root to the
root itself. No file is a link, and every file may be read and written. -/

namespace DesignGraph.Storage

/-- Files and directories by the parts of their paths; a directory has no content. -/
structure Tree where
  /-- The working directory. -/
  here : List String
  entries : List (List String × Option (List UInt8))

namespace Tree

/-- What is at a place. The root is a directory. -/
def entry? (t : Tree) (parts : List String) : Option (Option (List UInt8)) :=
  if parts.isEmpty then some none else t.entries.lookup parts

/-- The names of what a directory holds. -/
def names (t : Tree) (parts : List String) : List String :=
  (t.entries.filter fun e => e.1.dropLast == parts).filterMap fun e => e.1.getLast?

/-- Puts a file or a directory at a place. -/
def put (t : Tree) (parts : List String) (content : Option (List UInt8)) : Tree :=
  if (t.entry? parts).isSome then
    { t with entries := t.entries.map fun e => if e.1 = parts then (parts, content) else e }
  else { t with entries := t.entries ++ [(parts, content)] }

/-- Makes the directories above a place that do not exist. -/
def withParents (t : Tree) (parts : List String) : Tree :=
  ((List.range parts.length).map parts.take).foldl
    (fun t p => if (t.entry? p).isSome then t else t.put p none) t

/-- Where a path starts. -/
def start (t : Tree) (p : Path) : List String := if p.root = "" then t.here else []

/-- The tree of a working directory with named files and directories. -/
def ofList (here : List String) (named : List (String × Option (List UInt8))) : Tree :=
  named.foldl (fun t e =>
    let path := Path.ofText e.1
    let parts := t.start path ++ path.parts
    (t.withParents parts).put parts e.2) ((withParents ⟨here, []⟩ here).put here none)

/-- Where parts of a path lead: to a place, or to something else. -/
def resolve (t : Tree) : List String → List String → List String ⊕ Found
  | place, [] => .inl place
  | place, part :: rest =>
    match t.entry? place with
    | none => .inr .nowhere
    | some (some _) => .inr .throughFile
    | some none =>
      if part = ".." then t.resolve place.dropLast rest
      else if Path.isOverlongPart part then .inr .tooLong
      else t.resolve (place ++ [part]) rest

/-- What is found under a path. -/
def look (t : Tree) (p : Path) : Found :=
  if !p.isNameable then .unnameable
  else if p.isOverlong then .tooLong
  else match t.resolve (t.start p) p.parts with
    | .inr found => found
    | .inl place =>
      match t.entry? place with
      | none => .nothing
      | some none => .directory (t.names place)
      | some (some bytes) => .file bytes

/-- Writes a file under a path that can be written. -/
def write (t : Tree) (p : Path) (bytes : List UInt8) : Tree :=
  match t.resolve (t.start p) p.parts with
  | .inr _ => t
  | .inl place => t.put place (some bytes)

end Tree

end DesignGraph.Storage
