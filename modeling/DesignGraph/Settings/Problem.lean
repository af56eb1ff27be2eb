import DesignGraph.Settings
import DesignGraph.Storage.Found
import DesignGraph.Text.Encoding
import DesignGraph.Yaml.Fault
import DesignGraph.Yaml.Value

/-! # Why there are no settings

A `Problem` is what keeps a run from having settings: a file that cannot be read, values that are refused, an
option of the search for settings that says nothing sensible (`OptionFault`), or what the library that searches
lets out by itself (`Escape`). -/

namespace DesignGraph.Settings

open Storage (Path)
open Yaml (Atom BadValue Value)

/-- The name of the type of an atom. -/
def atomType : Atom → String
  | .null => "NoneType"
  | .bool _ => "bool"
  | .int _ => "int"
  | .float _ => "float"
  | .nan _ => "float"
  | .text _ => "str"
  | .points _ => "str"
  | .bytes _ => "bytes"
  | .date _ => "datetime.date"
  | .moment _ => "datetime.datetime"

/-- The name of the type of a value. -/
def valueType : Value → String
  | .atom a => atomType a
  | .list _ => "list"
  | .map _ => "dict"
  | .set _ => "set"
  | .pair _ _ => "tuple"
  | .recurring _ content => valueType content

/-- What is wrong with an option of the search for settings. -/
inductive OptionFault where
  /-- The settings themselves are given. -/
  | settingsGiven
  /-- A value that is neither a path nor holds several. -/
  | noPaths (type : String)
  /-- A value in the place of a path. -/
  | noPath (type : String)
  /-- Bytes in the place of a path. -/
  | bytesPath
  /-- A beginning of names that has no length. -/
  | noLength (type : String)
  /-- A beginning of names that cannot be put in front of one. -/
  | noBeginning
  /-- A value in the place of the name of an encoding. -/
  | noEncoding (type : String)
  | unknownEncoding (name : String)
  /-- The name of an encoding of bytes as bytes. -/
  | byteEncoding (name : String)
  /-- A name of an encoding with the character zero. -/
  | zeroEncoding
  /-- A path that starts with the home of someone unknown. -/
  | noHome
  /-- A file in the place of a directory of secrets. -/
  | secretsFile
  /-- A secret that cannot be read. -/
  | unreadSecret (f : Field)
  deriving DecidableEq, Repr

/-- The wording of a setting that a source cannot give. -/
def unreadMessage (f : Field) (source : String) : String :=
  "error getting value for field \"" ++ f.name ++ "\" from source \"" ++ source ++ "\""

/-- The wording of what is wrong with an option. -/
def OptionFault.message : OptionFault → String
  | settingsGiven => "BaseSettings.__init__() got multiple values for argument '__pydantic_self__'"
  | noPaths type => Text.quoted type ++ " object is not iterable"
  | noPath type => "expected str, bytes or os.PathLike object, not " ++ type
  | bytesPath =>
    "argument should be a str object or an os.PathLike object returning str, not <class 'bytes'>"
  | noLength type => "object of type " ++ Text.quoted type ++ " has no len()"
  | noBeginning => unreadMessage .implementationUid "EnvSettingsSource"
  | noEncoding type => "open() argument 'encoding' must be str or None, not " ++ type
  | unknownEncoding name => "unknown encoding: " ++ name
  | byteEncoding name =>
    "'" ++ name ++ "' is not a text encoding; use codecs.open() to handle arbitrary codecs"
  | zeroEncoding => "embedded null character"
  | noHome => "Could not determine home directory."
  | secretsFile => "secrets_dir must reference a directory, not a file"
  | unreadSecret f => unreadMessage f "SecretsSettingsSource"

/-- What the settings library lets out where it meets an option of its own. -/
structure Escape where
  /-- The name of the error. -/
  name : String
  message : String
  /-- The exit code that it leaves. -/
  exitCode : Nat

/-- Why there are no settings. -/
inductive Problem where
  /-- The settings file is not there. -/
  | missing (path : Path)
  /-- Whether a file is there cannot be told. -/
  | untold (path : Path) (why : Storage.Fault)
  /-- The settings file cannot be read. -/
  | unreadable (path : Path) (why : Storage.Fault)
  /-- The settings file is not well formed. -/
  | malformed (path : Path)
  /-- The settings file does not hold a mapping. -/
  | noMapping (path : Path)
  /-- Values are refused. -/
  | fields (refused : List Field)
  /-- A file is no text. -/
  | noText (why : Text.DecodeError)
  /-- A value in the settings file names nothing. -/
  | badValue (why : BadValue)
  /-- A key in the settings file is no text. -/
  | badKey (key : Atom)
  /-- A key in the settings file holds surrogates: from the first one on, up to the last one of a run. -/
  | surrogateKey (surrogate first last : Nat)
  /-- An option of the search for settings is wrong. -/
  | badOption (why : OptionFault)
  /-- The settings library ends the search by itself. -/
  | escaped (why : Escape)

namespace Problem

/-- Whether a run announces the problem as one of its settings; others it only passes on. -/
def isForeseen : Problem → Bool
  | missing _ => true
  | unreadable _ _ => true
  | malformed _ => true
  | noMapping _ => true
  | fields _ => true
  | _ => false

/-- The wording of a problem. -/
def message : Problem → String
  | missing path => "Config file not found: " ++ path.text
  | untold path why => why.message path
  | unreadable path why => "Cannot read config file " ++ path.text ++ ": " ++ why.message path
  | malformed path => "Cannot read config file " ++ path.text
  | noMapping path => "Config file must contain a mapping: " ++ path.text
  | fields _ => "Invalid configuration"
  | noText why => why.message
  | badValue why => why.message
  | badKey (.bytes _) => "keywords must be strings"
  | badKey key => Text.quoted (atomType key) ++ " object has no attribute 'upper'"
  | surrogateKey n first last =>
    let place :=
      if first = last then
        "character '" ++ String.ofList (Text.numericEscape n) ++ "' in position " ++ toString first
      else "characters in position " ++ toString first ++ "-" ++ toString last
    "'utf-8' codec can't encode " ++ place ++ ": surrogates not allowed"
  | badOption why => why.message
  | escaped why => why.message

/-- The exit code of a run that passes the problem on. -/
def exitCode : Problem → Nat
  | escaped why => why.exitCode
  | _ => 1

end Problem

end DesignGraph.Settings
