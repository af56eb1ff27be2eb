import DesignGraph.Settings
import DesignGraph.Text.Digit
import DesignGraph.Yaml.Value

/-! # Checking settings

`Settings.ofValues` makes settings of the values given for some of the fields; a field without a value
keeps its default. Texts must be texts. A truth value may be given as the number zero or one or as a
word; the implementation class must not be blank; the level of logging is put into upper case and must
be one of `levels`. All fields that fail are reported, in the order of their declaration. -/

namespace DesignGraph.Settings

open Yaml (Atom Value)

/-- The words for truth values in lower case. -/
def truthWords : List (String × Bool) := [
  ("0", false), ("f", false), ("n", false), ("no", false), ("off", false), ("false", false),
  ("1", true), ("t", true), ("y", true), ("on", true), ("yes", true), ("true", true)]

/-- A value as a truth value. -/
def truth? : Value → Option Bool
  | .atom a =>
    match a.asInt? with
    | some n => if n = 0 then some false else if n = 1 then some true else none
    | none => a.text?.bind fun word => truthWords.lookup word.toLower
  | _ => none

/-- A text that is not blank. -/
def solidText? (v : Value) : Option String := v.text?.filter fun s => !Text.isBlankText s

/-- A text, or none for the null value. -/
def optionalText? : Value → Option (Option String)
  | .atom .null => some none
  | v => v.text?.map some

/-- The levels of logging. -/
def levels : List String :=
  ["CRITICAL", "FATAL", "ERROR", "WARN", "WARNING", "INFO", "DEBUG", "NOTSET"]

/-- A letter in upper case, as far as an ASCII letter comes of it. -/
def upperLetter (c : Char) : Char :=
  if c = 'ı' then 'I' else if c = 'ſ' then 'S' else c.toUpper

/-- A level of logging in any case. -/
def level? (v : Value) : Option String :=
  (v.text?.map fun s => s.map upperLetter).filter levels.contains

/-- The value of a field that may not be given. -/
def given {α : Type} (default : α) (read : Value → Option α) : Option Value → Option α
  | none => some default
  | some v => read v

/-- Settings with the values given, or the fields whose values are refused. -/
def ofValues (get : Field → Option Value) : Except (List Field) Settings :=
  let uid? := given default.implementationUid solidText? (get .implementationUid)
  let label? := given default.implementationLabel Value.text? (get .implementationLabel)
  let datatype? := given default.datatypeUid optionalText? (get .datatypeUid)
  let recursive? := given default.recursive truth? (get .recursive)
  let suffix? := given default.typeSuffix Value.text? (get .typeSuffix)
  let level? := given default.logLevel level? (get .logLevel)
  match uid?, label?, datatype?, recursive?, suffix?, level? with
  | some uid, some label, some datatype, some recursive, some suffix, some level =>
    .ok ⟨uid, label, datatype, recursive, suffix, level⟩
  | _, _, _, _, _, _ =>
    .error <| ([
      (.implementationUid, uid?.isNone), (.implementationLabel, label?.isNone),
      (.datatypeUid, datatype?.isNone), (.recursive, recursive?.isNone),
      (.typeSuffix, suffix?.isNone), (.logLevel, level?.isNone)].filter (·.2)).map (·.1)

end DesignGraph.Settings
