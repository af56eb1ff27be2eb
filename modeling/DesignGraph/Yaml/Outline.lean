import DesignGraph.Yaml.ScalarText

/-! # Outlines and their layout

An `Outline` is a document to be written: truth values, integers and text, in lists and in mappings whose
keys are short texts without ends of lines. `Outline.text` writes one in block style: every entry of a
mapping and every item of a list starts a line, mappings are indented by two below what holds them, and a
list that is the value of an entry stands directly below its key. An empty list or mapping is written as
a pair of brackets. -/

namespace DesignGraph.Yaml

/-- A document to be written. -/
inductive Outline where
  | null
  | bool (b : Bool)
  | int (n : Int)
  | text (s : String)
  | list (items : List Outline)
  | map (entries : List (String × Outline))

namespace Outline

mutual

/-- An outline behind a key or a dash. `column` is the column behind that and `indent` the indentation of
what holds the outline. -/
def write (unicode : Bool) (column indent : Nat) : Outline → List Char
  | null => " null\n".toList
  | bool b => (if b then " true\n" else " false\n").toList
  | int n => ' ' :: (toString n).toList ++ ['\n']
  | text s => ' ' :: writeText ⟨column + 1, indent + 2, true⟩ unicode false s ++ ['\n']
  | list [] => " []\n".toList
  | list (x :: xs) => '\n' :: writeItems unicode indent false (x :: xs)
  | map [] => " \x7b\x7d\n".toList
  | map (e :: es) => '\n' :: writeEntries unicode (indent + 2) false (e :: es)
termination_by o => 2 * sizeOf o

/-- An outline as an item, behind the dash that stands at an indentation: what has lines of its own goes
on in the line of the dash. -/
def writeItem (unicode : Bool) (indent : Nat) : Outline → List Char
  | list (x :: xs) => ' ' :: writeItems unicode (indent + 2) true (x :: xs)
  | map (e :: es) => ' ' :: writeEntries unicode (indent + 2) true (e :: es)
  | o => write unicode (indent + 1) indent o
termination_by o => 2 * sizeOf o + 1

/-- The items of a list at an indentation; the first line may be indented already. -/
def writeItems (unicode : Bool) (indent : Nat) (started : Bool) : List Outline → List Char
  | [] => []
  | x :: xs =>
    (if started then [] else List.replicate indent ' ') ++ '-' :: writeItem unicode indent x ++
      writeItems unicode indent false xs
termination_by l => 2 * sizeOf l

/-- The entries of a mapping at an indentation; the first line may be indented already. -/
def writeEntries (unicode : Bool) (indent : Nat) (started : Bool) : List (String × Outline) → List Char
  | [] => []
  | (k, x) :: es =>
    let key := writeText ⟨indent, indent + 2, false⟩ unicode true k
    (if started then [] else List.replicate indent ' ') ++ key ++
      ':' :: write unicode (indent + key.length + 1) indent x ++
      writeEntries unicode indent false es
termination_by l => 2 * sizeOf l

end

/-- The text of a mapping as a whole document. Alphabets other than the Latin one are escaped unless
`unicode` is set. -/
def document (unicode : Bool) (entries : List (String × Outline)) : String :=
  String.ofList (if entries.isEmpty then "\x7b\x7d\n".toList else writeEntries unicode 0 false entries)

end Outline

end DesignGraph.Yaml
