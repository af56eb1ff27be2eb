import DesignGraph.Command.Usage
import DesignGraph.Text.Digit
import DesignGraph.Text.Parts

/-! # The command line

A word of the command line is an option if it starts with a hyphen, unless it is a single hyphen, a
negative number or unknown with a space in it. A long option may be cut short as long as no other one
starts like it, and may have its value behind an equals sign; of an option given more than once the last
one counts. Two hyphens end the options: all words behind them are values.

All words are told apart first (`Word.ofText`); then they are taken one after the other, and whoever asks
for help gets it, as long as nothing before was wrong (`Arguments.read`). -/

namespace DesignGraph.Command

/-! ### Words -/

/-- A word of the command line. -/
inductive Word where
  | value (text : String)
  /-- An option, with the value behind its equals sign. -/
  | option (switch : Switch) (attached : Option String)
  /-- The option `-h` with something behind it, perhaps behind an equals sign. -/
  | shortHelp (attached : List Char)
  /-- Something like an option. -/
  | unknown (text : String)
  deriving DecidableEq, Repr

/-- Whether a text is a hyphen with digits behind it, perhaps with a point in front of the last ones. -/
def isNegativeNumber (text : List Char) : Bool :=
  let isDigit := fun c => (Text.digitValue? c).isSome
  match text with
  | '-' :: r =>
    let r := if r.getLast? = some '\n' then r.dropLast else r
    match r.dropWhile isDigit with
    | [] => !r.isEmpty
    | '.' :: fraction => !fraction.isEmpty && fraction.all isDigit
    | _ => false
  | _ => false

/-- A word that starts with a hyphen and names no option. -/
def Word.ofOther (text : String) : Word :=
  if isNegativeNumber text.toList || text.toList.contains ' ' then .value text else .unknown text

/-- What a word is. -/
def Word.ofText (text : String) : Except UsageError Word :=
  match text.toList with
  | '-' :: '-' :: _ =>
    let (front, attached?) := Text.cutAt '=' text.toList
    let attached? := attached?.map String.ofList
    match Switch.all.filter fun s => front.isPrefixOf s.spelling.toList with
    | [] => .ok (.ofOther text)
    | [s] => .ok (.option s attached?)
    | switches =>
      match switches.find? fun s => front == s.spelling.toList with
      | some s => .ok (.option s attached?)
      | none => .error (.ambiguous text switches)
  | ['-', 'h'] => .ok (.option .help none)
  | '-' :: 'h' :: '=' :: r => .ok (.shortHelp r)
  | '-' :: 'h' :: r => .ok (.shortHelp r)
  | '-' :: _ :: _ => .ok (.ofOther text)
  | _ => .ok (.value text)

/-! ### Values -/

/-- What the command line says. -/
structure Arguments where
  /-- The files named; none for one that is no text, since only the mark of the end of options is there. -/
  files : List (Option String)
  uid : String
  label : String
  typeUid : String
  recursive : Bool
  config : String
  deriving DecidableEq, Repr

/-- The command line without words. -/
def Arguments.empty : Arguments := ⟨[], "", "", "", false, ""⟩

/-- The command line with the value of an option. -/
def Arguments.set (a : Arguments) (s : Switch) (value : String) : Arguments :=
  match s with
  | .uid => { a with uid := value }
  | .label => { a with label := value }
  | .typeUid => { a with typeUid := value }
  | .config => { a with config := value }
  | .recursive => { a with recursive := true }
  | .help => a

/-- How reading a command line ends early. -/
inductive Interruption where
  | help
  | error (e : UsageError)
  deriving DecidableEq, Repr

/-- What a word was taken for. -/
inductive Taken where
  | file
  | leftOver
  | option
  deriving DecidableEq, Repr

/-- What is read so far: the words left over, and what the last word was taken for. -/
structure Reading where
  arguments : Arguments
  extra : List String
  last : Taken

namespace Reading

/-- Whether a file is still to be named. -/
def hasRoom (r : Reading) : Bool := r.arguments.files.length < 2

/-- Takes a file. -/
def addFile (r : Reading) (file? : Option String) : Reading :=
  { r with
    arguments := { r.arguments with files := r.arguments.files ++ [file?] }
    last := .file }

/-- Takes words as left over. -/
def leave (r : Reading) (words : List String) : Reading :=
  { r with extra := r.extra ++ words, last := .leftOver }

/-- Takes a value as a file if one is still to be named. -/
def place (r : Reading) (value : String) : Reading :=
  if r.hasRoom then r.addFile (some value) else r.leave [value]

/-- Takes the value of an option. -/
def set (r : Reading) (s : Switch) (value : String) : Reading :=
  { r with arguments := r.arguments.set s value, last := .option }

/-- What asking for help with something attached comes to. Letters `h` ask for help once more, and nothing
else may be attached. -/
def helpWith (attached : List Char) : Interruption :=
  match attached, attached.dropWhile (· == 'h') with
  | _ :: _, [] => .help
  | _, rest => .error (.valueIgnored .help (String.ofList rest))

/-- Takes words. `pending` is the option whose value comes next. -/
def take (r : Reading) (pending : Option Switch) : List Word → Except Interruption Reading
  | [] =>
    match pending with
    | some s => .error (.error (.valueExpected s))
    | none => .ok r
  | w :: rest =>
    match pending, w with
    | some s, .value text => (r.set s text).take none rest
    | some s, _ => .error (.error (.valueExpected s))
    | none, .value text => (r.place text).take none rest
    | none, .unknown text => { r.leave [text] with last := .option }.take none rest
    | none, .shortHelp attached => .error (helpWith attached)
    | none, .option s (some value) =>
      if s.takesValue then (r.set s value).take none rest
      else .error (.error (.valueIgnored s value))
    | none, .option s none =>
      if s.takesValue then r.take (some s) rest
      else if s = .help then .error .help
      else (r.set s "").take none rest

/-- The mark of the end of options. -/
def endMark : String := "--"

/-- Takes a word behind the mark. The mark once more is no text of a file. -/
def takeBehind (r : Reading) (word : String) : Reading :=
  if r.hasRoom && word == endMark then r.addFile none else r.place word

/-- Takes the mark and the words behind it. The mark belongs to the file in front of it, or else to the
one behind it, which it then may be the text of; if there is no file the mark is left over. -/
def finish (r : Reading) (behind : List String) : Reading :=
  match r.last, behind with
  | .file, words => words.foldl takeBehind r
  | .option, word :: words =>
    if r.hasRoom then words.foldl takeBehind (r.place word) else r.leave (endMark :: word :: words)
  | _, words => r.leave (endMark :: words)

end Reading

/-- What a command line says, with two files. -/
def Arguments.read (words : List String) : Except Interruption Arguments := do
  let front := words.takeWhile (· != Reading.endMark)
  let told ← (front.mapM Word.ofText).mapError .error
  let r ← (⟨.empty, [], .option⟩ : Reading).take none told
  let r := match words.drop front.length with
    | [] => r
    | _ :: behind => r.finish behind
  let files := r.arguments.files.length
  if files < 2 then throw (.error (.required (fileNames.drop files)))
  if !r.extra.isEmpty then throw (.error (.unrecognized r.extra))
  return r.arguments

end DesignGraph.Command
