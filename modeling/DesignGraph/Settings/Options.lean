import DesignGraph.Settings.Problem
import DesignGraph.Text.LowerCase
import DesignGraph.Text.Parts

/-! # Where settings are looked for

Some keywords that start with an underscore name no setting, but say where settings are looked for and how
their names are compared (`Options.ofKeywords`). What they leave open is as in `Options.default`: variables
start with `ONTOGEN_`, case does not count, and there is one file of variables, `.env`.

The library that searches takes further options, for words of a command line among other things. Which ones they
are, and what becomes of the settings if one of them is given, is left open (`Library`). -/

namespace DesignGraph.Settings

open Storage (Found Path)
open Yaml (Value)

/-- What is left open of the library that searches for settings, and of the system below it. -/
structure Library where
  /-- Whether a keyword is an option that the library has beside those of `Options`. -/
  isOwn : String → Bool
  /-- What is found with keywords of which some are such options. -/
  settings : (Path → Found) → List (String × String) → List (String × Value) → Except Problem Settings
  /-- The home of an account. The empty name is for the account of the run. -/
  home? : String → Option Path

/-- A library without further options, where no account has a home. -/
def Library.bare : Library := ⟨fun _ => false, fun _ _ _ => .ok .default, fun _ => none⟩

/-- Where settings are looked for. -/
structure Options where
  /-- What the names of variables start with. -/
  beginning : String
  caseSensitive : Bool
  /-- Whether variables with an empty value count as not given. -/
  ignoresEmpty : Bool
  /-- The value of a variable that stands for the null value. -/
  nullText? : Option String
  /-- The files of variables, the weakest first. -/
  files : List Value
  /-- The encoding of these files. -/
  encoding : Value
  /-- The directories with a file for each setting, or one of them, the weakest first. -/
  secrets? : Option Value

namespace Options

/-- The file of variables in the working directory. -/
def dotenvName : String := ".env"

/-- What holds if nothing is said. -/
def default : Options :=
  ⟨"ONTOGEN_", false, false, none, [.text dotenvName], .text "utf-8", none⟩

/-- A value that is a text as a list of its own, or else what can be gone through one by one. -/
def several (v : Value) : Except OptionFault (List Value) :=
  match v with
  | .atom (.text _) => .ok [v]
  | .atom (.points _) => .ok [v]
  | .atom (.bytes b) => .ok (b.map fun b => .atom (.int b.toNat))
  | .atom a => .error (.noPaths (atomType a))
  | .set elements => .ok (elements.map .atom)
  | .pair key value => .ok [key, value]
  | v => .ok ((v.items?).getD (((v.entries?).getD []).map fun e => .atom e.1))

/-- A path where a tilde in front, with or without an account behind it, is the home of the account. -/
def expandHome (lib : Library) (p : Path) : Except OptionFault Path :=
  match p.root, p.parts.map String.toList with
  | "", ('~' :: account) :: rest =>
    match lib.home? (String.ofList account) with
    | some home => .ok { home with parts := home.parts ++ rest.map String.ofList }
    | none => .error .noHome
  | _, _ => .ok p

/-- A value as a path. -/
def path (lib : Library) (v : Value) : Except OptionFault Path :=
  match v with
  | .atom (.text s) => expandHome lib (.ofText s)
  | .atom (.bytes _) => .error .bytesPath
  | v => .error (.noPath (valueType v))

/-- A value in front of names. -/
def beginningOf (v : Value) : Except OptionFault String :=
  match v with
  | .atom (.text s) => .ok s
  | .atom (.points _) => .ok "\ufffd"
  | .atom (.bytes _) => .error .noBeginning
  | .atom a => .error (.noLength (atomType a))
  | _ => .error .noBeginning

/-- The options that keywords give. Null is as good as nothing, except for the files of variables. -/
def ofKeywords (keywords : List (String × Value)) : Except OptionFault Options := do
  let get := fun name => (keywords.lookup name).filter fun v => !(v matches .atom .null)
  let flag := fun name => (get name).any fun v => !v.isVacant
  if (keywords.lookup "__pydantic_self__").isSome then throw .settingsGiven
  return {
    beginning := ← (get "_env_prefix").elim (pure default.beginning) beginningOf
    caseSensitive := flag "_case_sensitive"
    ignoresEmpty := flag "_env_ignore_empty"
    nullText? := match get "_env_parse_none_str" with
      | some (.atom (.text s)) => some s
      | _ => none
    files := ← match keywords.lookup "_env_file" with
      | none => pure default.files
      | some (.atom .null) => pure []
      | some v => several v
    encoding := ((get "_env_file_encoding").filter fun v => !v.isVacant).getD default.encoding
    secrets? := get "_secrets_dir" }

/-- A text in lower case. -/
def lower (text : String) : String := String.ofList (Text.lowerCaseText text.toList)

/-- Whether a variable has the name for a setting. -/
def isNameOf (o : Options) (f : Field) (name : String) : Bool :=
  if o.caseSensitive then name == o.beginning ++ f.name
  else lower name == lower (o.beginning ++ f.name)

/-- The value that variables give a setting: the last one of its name, if it has a value. -/
def value? (o : Options) (f : Field) (named : List (String × Option String)) : Option Value := do
  let found ← named.reverse.find? fun e =>
    o.isNameOf f e.1 && !(o.ignoresEmpty && e.2 == some "")
  let text ← found.2
  return if o.nullText? = some text then .null else .text text

end Options

end DesignGraph.Settings
