import DesignGraph.Settings.Dotenv
import DesignGraph.Settings.Options
import DesignGraph.Settings.Validation
import DesignGraph.Yaml.Grammar

/-! # Where settings come from

The sources of settings are, the strongest first, keywords, the environment, files of variables such as the
file `.env` in the working directory, files with one secret each, and the defaults (`Sources.value?`). Of
keywords that differ in case only, the first one counts, of variables the last one. If a keyword is an option
that the library has for itself, the library tells the settings (`ofKeywords`).

The keys of a settings file are keywords too, but one is dropped if exactly the upper-case variable of its
name is in the environment (`keywordsOf`). -/

namespace DesignGraph.Settings

open Storage (Found Path)
open Yaml (Atom BadValue Value)

/-- The sources of settings besides the defaults. -/
structure Sources where
  options : Options
  keywords : List (String × Value)
  environment : List (String × String)
  dotenv : List Dotenv.Binding
  secrets : List (Field × String)

/-! ### Precedence -/

/-- The value of a setting among the keywords. -/
def keyword? (f : Field) (keywords : List (String × Value)) : Option Value :=
  (keywords.find? fun e => Options.lower e.1 == f.name).map (·.2)

/-- The value that the sources give a setting. -/
def Sources.value? (s : Sources) (f : Field) : Option Value :=
  keyword? f s.keywords <|>
    s.options.value? f (s.environment.map fun e => (e.1, some e.2)) <|>
    s.options.value? f s.dotenv <|>
    (s.secrets.lookup f).map Value.text

/-- The settings that the sources give. -/
def ofSources (s : Sources) : Except Problem Settings := (ofValues s.value?).mapError .fields

/-! ### Files of variables -/

/-- The encoding that a value names. -/
def encodingOf (v : Value) : Except OptionFault Text.Encoding :=
  match v with
  | .atom (.text name) =>
    if name.toList.contains '\x00' then .error .zeroEncoding
    else if Text.Encoding.isByteName name then .error (.byteEncoding name)
    else (Text.Encoding.ofName? name).elim (.error (.unknownEncoding name)) .ok
  | v => .error (.noEncoding (valueType v))

/-- The text of the file of variables under a path, if there is one. -/
def dotenvText? (look : Path → Found) (encoding : Value) (path : Path) :
    Except Problem (Option (List Char)) := do
  match look path with
  | .file bytes =>
    let encoding ← (encodingOf encoding).mapError .badOption
    let text ← (encoding.decode bytes).mapError .noText
    return some (Text.unifyLineEnds text)
  | .tooLong => throw (.untold path .tooLong)
  | _ => return none

/-- The variables of the files of variables, the strongest last. -/
def dotenvOf (lib : Library) (look : Path → Found) (environment : List (String × String)) (o : Options) :
    Except Problem (List Dotenv.Binding) := do
  let lists ← o.files.mapM fun v => do
    let path ← (Options.path lib v).mapError .badOption
    let text? ← dotenvText? look o.encoding path
    return Dotenv.expand environment (Dotenv.bindings (text?.getD []))
  return lists.flatten

/-! ### Secrets -/

/-- The directories of secrets that are there, the strongest first. -/
def secretDirectories (lib : Library) (look : Path → Found) (o : Options) :
    Except Problem (List (Path × List String)) := do
  let values ← (o.secrets?.elim (pure []) Options.several).mapError .badOption
  let paths ← (values.mapM (Options.path lib)).mapError .badOption
  let present ← paths.filterM fun p => (look p).isPresent.mapError (.untold p)
  let named ← present.mapM fun p => match look p with
    | .directory names => pure (p, names)
    | _ => throw (.badOption .secretsFile)
  return named.reverse

/-- The secret for a setting, without the blanks around it. -/
def secret? (look : Path → Found) (o : Options) (directories : List (Path × List String)) (f : Field) :
    Except Problem (Option String) :=
  let files := directories.filterMap fun (p, names) => do
    let name ← names.find? (o.isNameOf f)
    match look { p with parts := p.parts ++ [name] } with
    | .file bytes => some bytes
    | _ => none
  match files with
  | [] => .ok none
  | bytes :: _ => do
    let text ← (Text.decodeUtf8 bytes).mapError fun _ => Problem.badOption (.unreadSecret f)
    return some (String.ofList (Text.trim Text.isBlank (Text.unifyLineEnds text)))

/-- The settings for which there are secrets. -/
def secretsOf (lib : Library) (look : Path → Found) (o : Options) : Except Problem (List (Field × String)) := do
  let directories ← secretDirectories lib look o
  let found ← Field.all.mapM fun f => return (← secret? look o directories f).map fun s => (f, s)
  return found.filterMap id

/-- The paths that the options name, and those in the directories of secrets among them. -/
def Options.paths (lib : Library) (look : Path → Found) (o : Options) : List Path :=
  let directories := (((o.secrets?.elim (pure []) several).toOption.getD []).filterMap fun v =>
    (path lib v).toOption)
  let secrets := directories.flatMap fun p => match look p with
    | .directory names => names.map fun name => { p with parts := p.parts ++ [name] }
    | _ => []
  o.files.filterMap (fun v => (path lib v).toOption) ++ directories ++ secrets

/-! ### Keywords -/

/-- The settings that keywords and the sources that they leave or name give. -/
def ofKeywords (lib : Library) (look : Path → Found) (environment : List (String × String))
    (keywords : List (String × Value)) : Except Problem Settings :=
  if keywords.any fun e => lib.isOwn e.1 then lib.settings look environment keywords
  else do
    let options ← (Options.ofKeywords keywords).mapError .badOption
    let dotenv ← dotenvOf lib look environment options
    let secrets ← secretsOf lib look options
    ofSources { options, keywords, environment, dotenv, secrets }

/-- What the names of all variables in the environment start with that a settings file gives way to. -/
def variableName (key : String) : String := Options.default.beginning ++ key.toUpper

/-- The fault of surrogates in a key; those that stand for single bytes are none. -/
def surrogateFault? (points : List Nat) : Option Problem :=
  let points := (variableName "").toList.map Char.toNat ++ points
  let isSurrogate := fun n => (Text.charOfPoint? n).isNone
  (points.findIdx? fun n => isSurrogate n && !(0xdc80 ≤ n && n ≤ 0xdcff)).map fun i =>
    let run := (points.drop i).takeWhile isSurrogate
    .surrogateKey (points.getD i 0) i (i + run.length - 1)

/-- What is wrong with a key of a settings file. -/
def keyFault? : Atom → Option Problem
  | .text _ => none
  | .bytes _ => none
  | .points p => surrogateFault? p
  | key => some (.badKey key)

/-- Whether a key is a byte string. -/
def isBytes : Atom → Bool
  | .bytes _ => true
  | _ => false

/-- The entries of a settings file as keywords, without those whose variable is in the environment. Bytes
as a key are found fault with only behind all others. -/
def keywordsOf (environment : List (String × String)) (entries : List (Atom × Value)) :
    Except Problem (List (String × Value)) := do
  let faults := entries.filterMap fun e => keyFault? e.1
  let bytes := (entries.find? fun e => isBytes e.1).map fun e => Problem.badKey e.1
  match faults.head? <|> bytes with
  | some p => throw p
  | none =>
    return entries.filterMap fun e => match e.1 with
      | .text key => if environment.any (·.1 == variableName key) then none else some (key, e.2)
      | _ => none

/-- The value of a settings file. -/
def fileValue (look : Path → Found) (path : Path) : Except Problem Value := do
  if !(← (look path).isPresent.mapError (.untold path)) then throw (.missing path)
  let bytes ← (look path).read.mapError (.unreadable path)
  (Yaml.readPortions (.ofBytes bytes)).mapError fun
    | .malformed => .malformed path
    | .badValue e => .badValue e
    | .noText e => .noText (.utf8 e)

/-- The keywords that a settings file holds. -/
def keywordsIn (look : Path → Found) (environment : List (String × String)) (path : Path) :
    Except Problem (List (String × Value)) := do
  let value ← fileValue look path
  if value.isVacant then return []
  match value.entries? with
  | some entries => keywordsOf environment entries
  | none => throw (.noMapping path)

/-- The settings that a file, the environment and the other sources give. -/
def ofFile (lib : Library) (look : Path → Found) (environment : List (String × String)) (path : Path) :
    Except Problem Settings := do
  ofKeywords lib look environment (← keywordsIn look environment path)

end DesignGraph.Settings
