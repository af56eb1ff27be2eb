import DesignGraph.Command.Arguments
import DesignGraph.Entity.Generate
import DesignGraph.Ontology
import DesignGraph.Settings.Sources
import DesignGraph.Storage.Model

/-! # A run of the command

A run reads its settings and the model, generates the selected algorithms, and hands over the model to be
written. `run` gives the outcome as a value: it looks at files only through the function it is given, and
writes none. What the outcome means for the caller is its exit code, the lines it prints, and the file
that is to be written (`Outcome.saved?`), which there is only if nothing failed before. -/

namespace DesignGraph.Command

open Storage (Found Path)

/-- What a run comes to. -/
inductive Outcome where
  | help
  | usage (why : UsageError)
  | noSettings (why : Settings.Problem)
  /-- A file is named by nothing. -/
  | noPath
  | noModel (why : Model.ReadProblem)
  | noMatch (why : Entity.NoMatch)
  /-- The model could not be written. -/
  | notSaved (report : Entity.Report) (why : Model.WriteProblem)
  | done (report : Entity.Report) (path : Path) (model : Store)

namespace Outcome

/-- What the run returns: success, a bad command line or bad input, no algorithm, no output; nothing, if it
passes a problem on. -/
def returned? : Outcome → Option Nat
  | help => some 0
  | usage _ => some 1
  | noSettings why => if why.isForeseen then some 1 else none
  | noPath => none
  | noModel why => if why.isForeseen then some 1 else none
  | noMatch _ => some 2
  | notSaved _ why => if why.isForeseen then some 3 else none
  | done _ _ _ => some 0

/-- The exit code. -/
def exitCode (o : Outcome) : Nat :=
  o.returned?.getD <| match o with
    | noSettings why => why.exitCode
    | _ => 1

/-- The file to be written, and its text. -/
def saved? : Outcome → Option (Path × String)
  | done _ path model => some (path, model.toYaml)
  | _ => none

/-- A line for each algorithm that could not be generated. -/
def failures (report : Entity.Report) : String :=
  String.join (report.failed.map fun f => "FAILED " ++ f.1 ++ ": " ++ f.2 ++ "\n")

/-- What is printed. -/
def output : Outcome → String
  | help => Command.help
  | usage _ => Command.usage
  | noSettings why =>
    if why.isForeseen then "Configuration error: " ++ why.message ++ "\n" else ""
  | noPath => ""
  | noModel why => if why.isForeseen then "Cannot load model: " ++ why.message ++ "\n" else ""
  | noMatch why => why.message ++ "\n"
  | notSaved report why =>
    failures report ++ if why.isForeseen then "FAILED: " ++ why.message ++ "\n" else ""
  | done report _ _ => failures report

/-- The wording of a file that is named by nothing. -/
def noPathMessage : String := "expected str, bytes or os.PathLike object, not list"

/-- What is printed as an error. -/
def errors : Outcome → String
  | usage why => name ++ ": error: " ++ why.message ++ "\n"
  | noSettings why => if why.isForeseen then "" else why.message ++ "\n"
  | noPath => noPathMessage ++ "\n"
  | noModel why => if why.isForeseen then "" else why.message ++ "\n"
  | notSaved _ why => if why.isForeseen then "" else why.message ++ "\n"
  | _ => ""

end Outcome

/-- The settings of a run: those of the file named, or of the other sources alone, with what the command
line says in their place. -/
def settings (lib : Settings.Library) (look : Path → Found) (environment : List (String × String))
    (a : Arguments) : Except Settings.Problem Settings := do
  let s ←
    if a.config = "" then Settings.ofKeywords lib look environment []
    else Settings.ofFile lib look environment (.ofText a.config)
  return { s with
    datatypeUid := if a.typeUid = "" then s.datatypeUid else some a.typeUid
    recursive := a.recursive || s.recursive }

/-- Generates into a model and hands it over to be written. -/
def generate (look : Path → Found) (a : Arguments) (s : Settings) (model : Store)
    (output? : Option String) : Outcome :=
  let start := Ontology.ofStore .algorithms model
  match start.store.generate s a.uid a.label with
  | .error why => .noMatch why
  | .ok (report, trace) =>
    match output? with
    | none => .noPath
    | some output =>
      let path := Path.ofText output
      match Model.writeProblem? look path with
      | some why => .notSaved report why
      | none => .done report path trace.store

/-- A run with a command line that is in order. -/
def runWith (lib : Settings.Library) (look : Path → Found) (environment : List (String × String))
    (a : Arguments) : Outcome :=
  match settings lib look environment a with
  | .error why => .noSettings why
  | .ok s =>
    match a.files with
    | some input :: rest =>
      match Model.load look (.ofText input) with
      | .error why => .noModel why
      | .ok model => generate look a s model (rest.headD none)
    | _ => .noPath

/-- The paths that a run looks at, as far as what is found under some tells. -/
def paths (lib : Settings.Library) (look : Path → Found) (environment : List (String × String))
    (a : Arguments) : List Path :=
  let keywords :=
    if a.config = "" then [] else (Settings.keywordsIn look environment (.ofText a.config)).toOption.getD []
  let options := (Settings.Options.ofKeywords keywords).toOption.getD .default
  .ofText a.config :: options.paths lib look ++ a.files.map fun f => .ofText (f.getD "")

/-- A run. -/
def run (lib : Settings.Library) (look : Path → Found) (environment : List (String × String))
    (words : List String) : Outcome :=
  match Arguments.read words with
  | .error .help => .help
  | .error (.error why) => .usage why
  | .ok a => runWith lib look environment a

end DesignGraph.Command
