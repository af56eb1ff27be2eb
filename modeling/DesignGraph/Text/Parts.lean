/-! # Parts of a text

`partsBetween` cuts a text at every separator, `cutAt` at the first one. -/

namespace DesignGraph.Text

/-- The text in front of the first separator, and the text behind it. -/
def cutAt (separator : Char) (text : List Char) : List Char × Option (List Char) :=
  let front := text.takeWhile (· != separator)
  match text.drop front.length with
  | _ :: rest => (front, some rest)
  | [] => (front, none)

/-- The parts of a text between separators. -/
def partsBetween (separator : Char) : List Char → List (List Char)
  | [] => [[]]
  | c :: r =>
    match partsBetween separator r with
    | [] => [[c]]
    | part :: parts => if c = separator then [] :: part :: parts else (c :: part) :: parts

end DesignGraph.Text
