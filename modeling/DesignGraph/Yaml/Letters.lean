import DesignGraph.Text.LowerCase
import DesignGraph.Text.Quoted

/-! # The letters of a scalar

What a scalar consists of is text, unless escapes between double quotes name surrogates, which are code
points but no characters. `Letters` holds either. Readers of numbers and words know characters only: to
them a surrogate is a character for private use that does not occur in the scalar (`Letters.standIns`),
and what they find fault with is shown with the surrogate in its place again (`Letters.shown`). -/

namespace DesignGraph.Yaml

/-- What a scalar consists of. -/
inductive Letters where
  | text (s : String)
  /-- Code points of which some are surrogates. -/
  | points (p : List Nat)
  deriving DecidableEq, Repr

namespace Letters

/-- The letters with given code points. -/
def ofPoints (p : List Nat) : Letters :=
  match p.mapM Text.charOfPoint? with
  | some chars => text (String.ofList chars)
  | none => points p

/-- The first character for private use in the last plane. -/
def firstPrivate : Nat := 0x100000

/-- The characters that take the places of surrogates. -/
def standIns : Letters → List (Nat × Char)
  | text _ => []
  | points p =>
    let surrogates := (p.filter fun n => (Text.charOfPoint? n).isNone).eraseDups
    let free := (List.range (2 * p.length)).map (firstPrivate + ·) |>.filter (!p.contains ·)
    (surrogates.zip free).map fun (n, m) => (n, Char.ofNat m)

/-- The letters as characters. -/
def chars : Letters → List Char
  | text s => s.toList
  | points p =>
    let standIns := (points p).standIns
    p.map fun n => (Text.charOfPoint? n).getD ((standIns.lookup n).getD '\ufffd')

/-- A part of the letters between quotes. -/
def shown (l : Letters) (part : List Char) : String :=
  let back := l.standIns.map fun (n, c) => (c, n)
  Text.quotedPoints (part.map fun c => (back.lookup c).getD c.toNat)

end Letters

end DesignGraph.Yaml
