import DesignGraph.Text.Quoted
import DesignGraph.Yaml.Outline

/-! # Settings

What a generator run can be told: under which implementation class it stores its texts, which datatypes
count, whether the algorithms used as parts are generated too, how type names end, and how much is
logged. A `Field` names one of these settings. -/

namespace DesignGraph

open Yaml (Outline)

/-- The settings of a generator run. -/
structure Settings where
  /-- The implementation class that hosts all generated texts. -/
  implementationUid : String
  implementationLabel : String
  /-- The class whose subclasses are the datatypes that count; all datatypes if there is none. -/
  datatypeUid : Option String
  /-- Whether the algorithms used as parts are generated too. -/
  recursive : Bool
  /-- What is appended to the label of an interface class to name its type. -/
  typeSuffix : String
  logLevel : String
  deriving DecidableEq, Repr

namespace Settings

/-- The settings of a run that is told nothing. -/
def default : Settings where
  implementationUid := "Software::Graph::Implementation::VHDL"
  implementationLabel := "VHDLImplementation"
  datatypeUid := none
  recursive := false
  typeSuffix := "_type"
  logLevel := "WARNING"

/-- One of the settings. -/
inductive Field where
  | implementationUid
  | implementationLabel
  | datatypeUid
  | recursive
  | typeSuffix
  | logLevel
  deriving DecidableEq, Repr

/-- The written name of a setting. -/
def Field.name : Field → String
  | implementationUid => "implementation_uid"
  | implementationLabel => "implementation_label"
  | datatypeUid => "datatype_uid"
  | recursive => "recursive"
  | typeSuffix => "type_suffix"
  | logLevel => "log_level"

/-- All settings in the order of their declaration. -/
def Field.all : List Field :=
  [implementationUid, implementationLabel, datatypeUid, recursive, typeSuffix, logLevel]

/-- The settings as a document to be written. -/
def document (s : Settings) : List (String × Outline) := [
  (Field.name .implementationUid, .text s.implementationUid),
  (Field.name .implementationLabel, .text s.implementationLabel),
  (Field.name .datatypeUid, s.datatypeUid.elim .null .text),
  (Field.name .recursive, .bool s.recursive),
  (Field.name .typeSuffix, .text s.typeSuffix),
  (Field.name .logLevel, .text s.logLevel)]

/-- The text of the settings, in the Latin alphabet with escapes for all others. -/
def toYaml (s : Settings) : String := Outline.document false s.document

/-- The settings in one line. -/
def display (s : Settings) : String :=
  "OntogenConfig(implementation_uid=" ++ Text.quoted s.implementationUid ++
    ", datatype_uid=" ++ s.datatypeUid.elim "None" Text.quoted ++
    ", recursive=" ++ (if s.recursive then "True" else "False") ++ ")"

end Settings

end DesignGraph
