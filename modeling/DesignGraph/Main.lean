import DesignGraph.Command.Run

/-! # The command

The program looks at the files that a run may ask for, makes the run on what it found, prints the
outcome and writes the model if there is one to be written. -/

namespace DesignGraph.Command

open Storage (Found Path)

/-- What is found under a path where neither a file nor a directory is, by the directories above. -/
def findAbove (p : Path) : IO Found := do
  for n in List.range p.parts.length do
    let above := System.mkFilePath [Path.text { p with parts := p.parts.take n }]
    if !(← above.isDir) then
      return if ← above.pathExists then .throughFile else .nowhere
    if (p.parts[n]?).any Path.isOverlongPart then return .tooLong
  return .nothing

/-- What is found under a path. -/
def find (p : Path) : IO Found := do
  if !p.isNameable then return .unnameable
  if p.isOverlong then return .tooLong
  let file := System.mkFilePath [p.text]
  if ← file.isDir then return .directory ((← file.readDir).toList.map (·.fileName))
  if ← file.pathExists then return .file (← IO.FS.readBinFile file).toList
  findAbove p

/-- The variables of the environment, as the system lists them. -/
def environment : IO (List (String × String)) := do
  let bytes ← IO.FS.readBinFile "/proc/self/environ"
  let text := (String.fromUTF8? bytes).getD ""
  return (Text.partsBetween '\x00' text.toList).filterMap fun entry =>
    match Text.cutAt '=' entry with
    | (name, some value) => some (String.ofList name, String.ofList value)
    | _ => none

/-- The library with the one home that the environment tells. It is taken to have no further options. -/
def library (environment : List (String × String)) : Settings.Library :=
  { Settings.Library.bare with
    home? := fun account => if account.isEmpty then (environment.lookup "HOME").map .ofText else none }

/-- Prints an outcome and gives its exit code. -/
def finish (outcome : Outcome) : IO UInt32 := do
  IO.print outcome.output
  IO.eprint outcome.errors
  return outcome.exitCode.toUInt32

/-- Writes the model of an outcome, and says so if that fails. -/
def save (outcome : Outcome) (path : Path) (text : String) : IO UInt32 := do
  try
    IO.FS.writeFile (System.mkFilePath [path.text]) text
    finish outcome
  catch why =>
    IO.print (outcome.output ++ "FAILED: Cannot write graph to " ++ path.text ++ ": " ++
      toString why ++ "\n")
    return 3

/-- What the command finds under the paths that its words name, and under those that it finds named
there: a settings file names directories, and these hold files. -/
def survey (environment : List (String × String)) (words : List String) : IO (Path → Found) := do
  let mut look : Path → Found := fun _ => .nothing
  match Arguments.read words with
  | .error _ => return look
  | .ok a =>
    for _ in List.range 3 do
      let found ← (paths (library environment) look environment a).mapM fun p => return (p, ← find p)
      look := fun p => (found.lookup p).getD .nothing
    return look

/-- Makes a run and writes its model. -/
def execute (words : List String) : IO UInt32 := do
  let environment ← environment
  let outcome := run (library environment) (← survey environment words) environment words
  match outcome.saved? with
  | none => finish outcome
  | some (path, text) => save outcome path text

end DesignGraph.Command

/-- Runs the command with the words of the command line. -/
def main (words : List String) : IO UInt32 :=
  DesignGraph.Command.execute words
