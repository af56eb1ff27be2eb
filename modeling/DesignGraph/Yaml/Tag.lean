import DesignGraph.Yaml.Implicit

/-! # The types of nodes

A tag names the type of what is written behind it; without a tag the type follows from the form. Lists,
mappings, sets and lists of entries are collections; the other types are written as scalars. -/

namespace DesignGraph.Yaml

/-- The type of a node. -/
inductive Tag where
  | text
  | null
  | bool
  | int
  | float
  | timestamp
  | binary
  | list
  | map
  | set
  /-- Entries in their order, as a list. -/
  | pairs
  /-- The type of the key `<<`. -/
  | merge
  /-- The type of the key `=`. -/
  | value
  | unknown
  deriving DecidableEq, Repr

namespace Tag

/-- The types by their names. -/
def names : List (String × Tag) := [
  ("str", text), ("null", null), ("bool", bool), ("int", int), ("float", float),
  ("timestamp", timestamp), ("binary", binary), ("seq", list), ("map", map), ("set", set),
  ("omap", pairs), ("pairs", pairs), ("merge", merge), ("value", value)]

/-- What the names of all types start with. -/
def namespaceText : String := "tag:yaml.org,2002:"

/-- The type with a full name. -/
def ofName (name : String) : Tag :=
  ((names.find? fun n => namespaceText ++ n.1 == name).map (·.2)).getD unknown

/-- The type of plain text without a tag. -/
def ofImplicit : Implicit → Tag
  | .text => text
  | .null => null
  | .bool => bool
  | .int => int
  | .float => float
  | .timestamp => timestamp
  | .merge => merge
  | .value => value

end Tag

end DesignGraph.Yaml
