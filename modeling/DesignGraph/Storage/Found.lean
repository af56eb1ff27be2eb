import DesignGraph.Storage.Path
import DesignGraph.Text.Quoted
import DesignGraph.Text.Utf8

/-! # What a path leads to

All that reading and writing a file need to know of the storage is what is found under a path
(`Found`). A file can be read; a file can be written where there is one already, or where nothing is in a
directory that exists. -/

namespace DesignGraph.Storage

/-- What is found under a path. -/
inductive Found where
  | file (bytes : List UInt8)
  /-- A directory, with the names of what it holds. -/
  | directory (names : List String)
  /-- Nothing, in a directory that exists. -/
  | nothing
  /-- The path leads through a directory that does not exist. -/
  | nowhere
  /-- The path leads through a file. -/
  | throughFile
  /-- The path is too long, or the path up to a part of it is that of a directory and the part too long. -/
  | tooLong
  /-- Nothing can have the path. -/
  | unnameable
  deriving DecidableEq, Repr

/-- Why a file cannot be read or written. -/
inductive Fault where
  | missing
  | notDirectory
  | isDirectory
  | tooLong
  | unnameable
  deriving DecidableEq, Repr

namespace Fault

/-- The wording of a fault under a path. -/
def message (f : Fault) (p : Path) : String :=
  match f with
  | missing => "[Errno 2] No such file or directory: " ++ Text.quoted p.text
  | notDirectory => "[Errno 20] Not a directory: " ++ Text.quoted p.text
  | isDirectory => "[Errno 21] Is a directory: " ++ Text.quoted p.text
  | tooLong => "[Errno 36] File name too long: " ++ Text.quoted p.text
  | unnameable => "embedded null byte"

/-- Whether the fault is one of the storage and not of the path alone. -/
def isOfStorage (f : Fault) : Bool := f != unnameable

end Fault

namespace Found

/-- Whether there is something; this cannot be told of a path that is too long. -/
def isPresent : Found → Except Fault Bool
  | file _ => .ok true
  | directory _ => .ok true
  | tooLong => .error .tooLong
  | _ => .ok false

/-- The content of the file. -/
def read : Found → Except Fault (List UInt8)
  | file bytes => .ok bytes
  | directory _ => .error .isDirectory
  | throughFile => .error .notDirectory
  | nothing => .error .missing
  | nowhere => .error .missing
  | tooLong => .error .tooLong
  | unnameable => .error .unnameable

/-- What keeps a file from being written. -/
def writeFault? : Found → Option Fault
  | file _ => none
  | nothing => none
  | directory _ => some .isDirectory
  | throughFile => some .notDirectory
  | nowhere => some .missing
  | tooLong => some .tooLong
  | unnameable => some .unnameable

end Found

end DesignGraph.Storage
