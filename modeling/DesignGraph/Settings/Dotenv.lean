import DesignGraph.Text.Digit

/-! # Files of variables

A file of variables holds lines `NAME=value`, with the word `export` in front if wanted. A value between
quotes may hold line ends, and behind a backslash the quote, the backslash and, between double quotes,
the letters for control characters; a value without quotes ends at the end of its line or at a number
sign behind a blank. A line that does not follow these rules is passed over. `expand` puts the values of
variables in place of their names in braces behind a dollar sign. -/

namespace DesignGraph.Settings.Dotenv

/-- A variable and its value, if it is given one. -/
abbrev Binding := String × Option String

/-! ### Characters -/

/-- A blank that does not end a line. -/
def isInnerBlank (c : Char) : Bool := Text.isBlank c && c != '\n' && c != '\r'

/-- A character that ends a line. -/
def endsLine (c : Char) : Bool := c == '\n' || c == '\r'

/-- The text behind the end of a line at its front. -/
def dropLineEnd : List Char → List Char
  | '\r' :: '\n' :: r => r
  | c :: r => if endsLine c then r else c :: r
  | [] => []

/-- The text behind this line. -/
def dropLine (text : List Char) : List Char := dropLineEnd (text.dropWhile fun c => !endsLine c)

/-! ### Parts of a line -/

/-- Leaves out the word `export` with the blanks behind it. -/
def dropExport (text : List Char) : List Char :=
  let word := "export".toList
  let rest := text.drop word.length
  if word.isPrefixOf text && rest.head?.any isInnerBlank then rest.dropWhile isInnerBlank else text

/-- The name in front of a text, none if a comment is there; or nothing if there is neither. -/
def takeName (text : List Char) : Option (Option String × List Char) :=
  match text with
  | '#' :: _ => some (none, text)
  | '\x27' :: r =>
    let name := r.takeWhile (· != '\x27')
    match r.drop name.length with
    | '\x27' :: rest => if name.isEmpty then none else some (some (String.ofList name), rest)
    | _ => none
  | _ =>
    let name := text.takeWhile fun c => !(c == '=' || c == '#' || Text.isBlank c)
    if name.isEmpty then none else some (some (String.ofList name), text.drop name.length)

/-- The text up to the closing quote, and the text behind it. A character behind a backslash closes
nothing. -/
def takeQuoted (quote : Char) : List Char → Option (List Char × List Char)
  | [] => none
  | '\\' :: c :: r => (takeQuoted quote r).map fun (text, rest) => ('\\' :: c :: text, rest)
  | c :: r =>
    if c = quote then some ([], r)
    else (takeQuoted quote r).map fun (text, rest) => (c :: text, rest)

/-- What the letters behind a backslash stand for. -/
def escapes : List (Char × Char) := [
  ('\\', '\\'), ('\x27', '\x27'), ('"', '"'), ('a', '\x07'), ('b', '\x08'), ('f', '\x0c'),
  ('n', '\n'), ('r', '\r'), ('t', '\t'), ('v', '\x0b')]

/-- Text with the escapes that are admitted replaced. -/
def unescape (admitted : List (Char × Char)) : List Char → List Char
  | '\\' :: c :: r =>
    match admitted.lookup c with
    | some d => d :: unescape admitted r
    | none => '\\' :: unescape admitted (c :: r)
  | c :: r => c :: unescape admitted r
  | [] => []

/-- Text up to a number sign behind a blank. -/
def dropComment : List Char → List Char
  | c :: '#' :: r => if Text.isBlank c then [] else c :: dropComment ('#' :: r)
  | c :: r => c :: dropComment r
  | [] => []

/-- The text without blanks at its end. -/
def dropTrailing (text : List Char) : List Char := (text.reverse.dropWhile Text.isBlank).reverse

/-- The value in front of a text, unless its quote is not closed. A comment behind a blank leaves the value
empty. -/
def takeValue (spaced : Bool) (text : List Char) : Option (List Char × List Char) :=
  if spaced && text.head? = some '#' then some ([], text)
  else match text with
  | '\x27' :: r =>
    (takeQuoted '\x27' r).map fun (value, rest) => (unescape (escapes.take 2) value, rest)
  | '"' :: r => (takeQuoted '"' r).map fun (value, rest) => (unescape escapes value, rest)
  | _ =>
    let line := text.takeWhile fun c => !endsLine c
    some (dropTrailing (dropComment line), text.drop line.length)

/-- The text behind a comment and the end of the line, if nothing else is there. -/
def takeLineEnd (text : List Char) : Option (List Char) :=
  let rest := text.dropWhile isInnerBlank
  let rest := if rest.head? = some '#' then rest.dropWhile fun c => !endsLine c else rest
  if rest.head?.all endsLine then some (dropLineEnd rest) else none

/-! ### Lines -/

/-- What was read at a place, or the place if nothing could be read there. -/
def readAt {α : Type} (place : List Char) (result? : Option α) : Except (List Char) α :=
  result?.elim (.error place) .ok

/-- The variable of the line in front of a text and the text behind that line; or the place where the
line does not follow the rules. A comment gives no variable. -/
def readBinding (text : List Char) : Except (List Char) (Option Binding × List Char) := do
  let text := dropExport text
  let (name?, text) ← readAt text (takeName text)
  let text := text.dropWhile isInnerBlank
  let (value?, text) ← match text with
    | '=' :: r => do
      let text := r.dropWhile isInnerBlank
      let (value, rest) ← readAt text (takeValue (r.head?.any isInnerBlank) text)
      pure (some (String.ofList value), rest)
    | text => pure (none, text)
  let rest ← readAt text (takeLineEnd text)
  return (name?.map fun name => (name, value?), rest)

/-- The variable of the line in front of a text, if there is one, and the text behind. -/
def takeBinding (text : List Char) : Option Binding × List Char :=
  match readBinding text with
  | .ok result => result
  | .error place => (none, dropLine place)

/-- The variables of a text from here on; at most `n` lines are read. -/
def bindingsFrom : Nat → List Char → List Binding
  | 0, _ => []
  | n + 1, text =>
    match text.dropWhile Text.isBlank with
    | [] => []
    | text =>
      let (binding?, rest) := takeBinding text
      binding?.toList ++ bindingsFrom n rest

/-- The variables of a text. Every line takes a character. -/
def bindings (text : List Char) : List Binding := bindingsFrom text.length text

/-! ### Values of other variables -/

/-- The name and the default of a reference to a variable, behind the opening brace, and the text behind
the closing one. -/
def takeReference (text : List Char) : Option (String × Option String × List Char) :=
  let name := text.takeWhile fun c => !(c == '\x7d' || c == ':')
  match text.drop name.length with
  | '\x7d' :: rest => some (String.ofList name, none, rest)
  | ':' :: '-' :: r =>
    let default := r.takeWhile (· != '\x7d')
    match r.drop default.length with
    | '\x7d' :: rest => some (String.ofList name, some (String.ofList default), rest)
    | _ => none
  | _ => none

/-- Text with the values of the variables it refers to; a variable without a value is empty. -/
def expandText (value : String → Option (Option String)) : Nat → List Char → List Char
  | 0, text => text
  | _ + 1, [] => []
  | n + 1, c :: r =>
    match (if c = '$' ∧ r.head? = some '\x7b' then takeReference (r.drop 1) else none) with
    | none => c :: expandText value n r
    | some (name, default?, rest) =>
      (((value name).getD default?).getD "").toList ++ expandText value n rest

/-- Gives a variable a value, at its place if it has one already. -/
def assign (name : String) (value? : Option String) (done : List Binding) : List Binding :=
  if done.any (·.1 == name) then
    done.map fun b => if b.1 = name then (name, value?) else b
  else done ++ [(name, value?)]

/-- Variables with their values expanded one after the other: what is given earlier, or else the
environment, is put in. -/
def expand (environment : List (String × String)) (given : List Binding) : List Binding :=
  given.foldl (fun done b =>
    let value := fun name => done.lookup name <|> (environment.lookup name).map some
    assign b.1 (b.2.map fun s => String.ofList (expandText value s.length s.toList)) done) []

end DesignGraph.Settings.Dotenv
