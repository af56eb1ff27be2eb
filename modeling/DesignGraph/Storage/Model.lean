import DesignGraph.Document
import DesignGraph.Storage.Found

/-! # Models in files

A model is read from a file in UTF-8 with any kind of line ends (`Model.load`), and written to one if
nothing stands in the way (`Model.writeProblem?`). -/

namespace DesignGraph.Model

open Storage (Found Path)

/-- Why a model cannot be read. -/
inductive ReadProblem where
  /-- The file cannot be read. -/
  | unreadable (path : Path) (why : Storage.Fault)
  /-- The file does not describe a graph. -/
  | noGraph (path : Path) (why : Document.Problem)
  /-- The file is no text. -/
  | noText (why : Text.Utf8Error)
  /-- A value in the file names nothing. -/
  | badValue (why : Yaml.BadValue)

namespace ReadProblem

/-- The wording of a problem. -/
def message : ReadProblem → String
  | unreadable path why =>
    (if why.isOfStorage then "Cannot read graph from " ++ path.text ++ ": " else "") ++ why.message path
  | noGraph path why => "Cannot parse graph from " ++ path.text ++ ": " ++ why.message
  | noText why => why.message
  | badValue why => why.message

/-- The path that a problem carries. -/
def path? : ReadProblem → Option Path
  | unreadable path why => if why.isOfStorage then some path else none
  | noGraph path _ => some path
  | _ => none

/-- Whether a run announces the problem as one of its model; others it only passes on. -/
def isForeseen (p : ReadProblem) : Bool := p.path?.isSome

end ReadProblem

/-- The model in a file. -/
def load (look : Path → Found) (path : Path) : Except ReadProblem Store := do
  let bytes ← (look path).read.mapError (.unreadable path)
  let text ← (Text.decodeUtf8 bytes).mapError .noText
  (Document.read (String.ofList (Text.unifyLineEnds text))).mapError fun
    | .badValue e => .badValue e
    | p => .noGraph path p

/-- Why a model cannot be written. -/
structure WriteProblem where
  path : Path
  why : Storage.Fault

namespace WriteProblem

/-- Whether a run announces the problem; others it only passes on. -/
def isForeseen (p : WriteProblem) : Bool := p.why.isOfStorage

/-- The wording of a problem. -/
def message (p : WriteProblem) : String :=
  (if p.isForeseen then "Cannot write graph to " ++ p.path.text ++ ": " else "") ++ p.why.message p.path

end WriteProblem

/-- What keeps a model from being written. -/
def writeProblem? (look : Path → Found) (path : Path) : Option WriteProblem :=
  (look path).writeFault?.map (⟨path, ·⟩)

end DesignGraph.Model
