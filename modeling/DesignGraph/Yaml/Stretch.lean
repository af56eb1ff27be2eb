import DesignGraph.Text.Portions
import DesignGraph.Yaml.Character
import DesignGraph.Yaml.Fault

/-! # How far a document can be read

A text that is at hand as a whole holds admissible characters only, or it is no document. A text that is
read from a file comes in portions, and a later portion is asked for when all before it has been read. So
what is wrong with a later portion stays unknown if something else is wrong before: the document is then a
`Stretch` that breaks off (`Stretch.ofPortions`). -/

namespace DesignGraph.Yaml

/-- The text of a document as far as it can be read. -/
structure Stretch where
  text : List Char
  /-- What is wrong behind the text, if it breaks off. -/
  broken? : Option Fault

namespace Stretch

/-- A text at hand. -/
def ofText (text : List Char) : Except Fault Stretch :=
  if text.all isAdmissible then .ok ⟨text, none⟩ else .error .malformed

/-- The number of portions that are asked for at the start. -/
def startPortions : Nat := 2

/-- A text that comes in portions. -/
def ofPortions (p : Text.Portions) : Except Fault Stretch :=
  let (first, later) := p.texts.splitAt startPortions
  match p.fault? with
  | none => build first later none
  | some e => if later.isEmpty && first.length < startPortions then .error (.noText e)
    else build first later (some (.noText e))
where
  /-- The portions at the start and those of the later ones that come in front of a bad one. -/
  build (first later : List (List Char)) (fault? : Option Fault) : Except Fault Stretch := do
    let start ← ofText first.flatten
    let good := later.takeWhile fun text => text.all isAdmissible
    let broken? := if good.length < later.length then some .malformed else fault?
    return ⟨start.text ++ good.flatten, broken?⟩

end Stretch

end DesignGraph.Yaml
