/-! # Identifiers of the hardware description

A basic identifier is a list of words of ASCII letters and digits, joined by single underscores, that
starts with a letter (`IsBasic`). `ofText` turns any text into one: the words of the text are its longest
runs of ASCII letters and digits, everything between them becomes one underscore, a leading digit gets
the letter `x` in front, and a text without words is the identifier `x`. The names of types, parts, ports
and signals are built from it. -/

namespace DesignGraph.Identifier

/-! ### Words -/

/-- The longest runs of ASCII letters and digits, in order. -/
def words : List Char → List (List Char)
  | [] => []
  | c :: r =>
    if c.isAlphanum then
      match r, words r with
      | d :: _, w :: ws => if d.isAlphanum then (c :: w) :: ws else [c] :: w :: ws
      | _, ws => [c] :: ws
    else words r

/-- The letter `x` in front of a name that starts with a digit. -/
def guardDigit : List Char → List Char
  | [] => []
  | c :: r => if c.isDigit then 'x' :: c :: r else c :: r

/-- The words joined by underscores, made to start with a letter. -/
def join (ws : List (List Char)) : List Char :=
  if ws.isEmpty then ['x'] else guardDigit (List.intercalate ['_'] ws)

/-- The basic identifier of a text. -/
def ofText (text : String) : String := String.ofList (join (words text.toList))

/-! ### The form of a basic identifier -/

/-- No two underscores stand side by side, and the last character is no underscore. -/
def spaced : List Char → Bool
  | [] => true
  | [c] => c != '_'
  | c :: d :: r => !(c == '_' && d == '_') && spaced (d :: r)

/-- ASCII letters, digits and single inner underscores, with a letter in front. -/
def IsBasic (name : String) : Prop :=
  (∃ c r, name.toList = c :: r ∧ c.isAlpha) ∧
    (∀ c ∈ name.toList, c.isAlphanum ∨ c = '_') ∧ spaced name.toList

/-! ### Names built from identifiers -/

/-- The type that belongs to the label of an interface class. -/
def ofType (label suffix : String) : String := ofText label ++ suffix

/-- The instance name of a part inside a composite. -/
def ofPart (part : String) : String := "component_" ++ ofText part

/-- The port of an input with this label. -/
def ofInput (label : String) : String := "input_" ++ ofText label

/-- The port of an output with this label. -/
def ofOutput (label : String) : String := "output_" ++ ofText label

/-- The signal that carries a port of a part. -/
def ofSignal (part port : String) : String := ofPart part ++ "_" ++ port

end DesignGraph.Identifier
