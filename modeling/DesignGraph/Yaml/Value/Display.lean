import DesignGraph.Decimal.Shortest
import DesignGraph.Text.Quoted
import DesignGraph.Yaml.Value.Order

/-! # Values in messages

Messages show a value in one line: texts between quotes, byte strings with the letter `b` in front, lists
in square brackets, mappings and sets in braces, and dates by what they consist of. A list or mapping that
occurs inside itself is shown as an ellipsis there. An integer can have too many digits to be shown
(`Value.isShowable`). -/

namespace DesignGraph.Yaml

/-- One byte between quotes `q`. -/
def displayByte (q : Char) (b : UInt8) : List Char :=
  let c := Char.ofNat b.toNat
  if c = q ∨ c = '\\' then ['\\', c]
  else if c = '\n' then ['\\', 'n']
  else if c = '\r' then ['\\', 'r']
  else if c = '\t' then ['\\', 't']
  else if 0x20 ≤ b ∧ b < 0x7f then [c]
  else '\\' :: 'x' :: Text.hexLower 2 b.toNat

/-- A byte string. -/
def displayBytes (bytes : List UInt8) : String :=
  let q := Text.quoteFor (bytes.map fun b => Char.ofNat b.toNat)
  String.ofList ('b' :: q :: bytes.flatMap (displayByte q) ++ [q])

/-- What is named, with its parts in parentheses. -/
def displayParts (name : String) (parts : List String) : String :=
  name ++ "(" ++ ", ".intercalate parts ++ ")"

/-- A day of the calendar. -/
def Date.display (d : Date) : String :=
  displayParts "datetime.date" ([d.year, d.month, d.day].map toString)

/-- An offset from universal time. -/
def displayZone (ahead : Int) : String :=
  if ahead = 0 then "datetime.timezone.utc"
  else displayParts "datetime.timezone"
    [duration (ahead / secondsPerDay) (ahead % secondsPerDay).toNat]

/-- A moment. The seconds are left out if there are none, and so are the microseconds. -/
def Moment.display (m : Moment) : String :=
  let fine := if m.microsecond ≠ 0 then [m.second, m.microsecond]
    else if m.second ≠ 0 then [m.second] else []
  displayParts "datetime.datetime"
    (([m.date.year, m.date.month, m.date.day, m.hour, m.minute] ++ fine).map toString ++
      m.ahead.toList.map fun s => "tzinfo=" ++ displayZone s)

/-- An atom. -/
def Atom.display : Atom → String
  | null => "None"
  | bool b => if b then "True" else "False"
  | int n => toString n
  | float x => x.text
  | nan _ => "nan"
  | text s => Text.quoted s
  | points p => Text.quotedPoints p
  | bytes b => displayBytes b
  | date d => d.display
  | moment m => m.display

/-- The most decimal digits of an integer that is shown. -/
def maxShownDigits : Nat := 4300

/-- The least number with too many digits to be shown. -/
def leastUnshown : Nat := Nat.pow 10 maxShownDigits

/-- Whether an atom can be shown. -/
def Atom.isShowable : Atom → Bool
  | int n => n.natAbs < leastUnshown
  | _ => true

/-- What is shown between an opening and a closing sign. -/
def enclose (first last : Char) (text : String) : String :=
  (String.singleton first ++ text).push last

namespace Value

/-- What stands for a list or a mapping inside itself. -/
def ellipsis (v : Value) : String :=
  if v.entries?.isSome then enclose '\x7b' '\x7d' "..." else enclose '[' ']' "..."

mutual

/-- A value in one line, inside of lists and mappings with the numbers given. -/
def displayWithin (around : List Nat) : Value → String
  | atom a => a.display
  | list items => enclose '[' ']' (", ".intercalate (displayAll around items))
  | map entries => enclose '\x7b' '\x7d' (", ".intercalate (displayEntries around entries))
  | set elements =>
    if elements.isEmpty then "set()"
    else enclose '\x7b' '\x7d' (", ".intercalate ((Atom.shownOrder elements).map Atom.display))
  | pair key value =>
    enclose '(' ')' (displayWithin around key ++ ", " ++ displayWithin around value)
  | recurring n content =>
    if around.contains n then content.ellipsis else displayWithin (n :: around) content

/-- Values, each in one line. -/
def displayAll (around : List Nat) : List Value → List String
  | [] => []
  | v :: vs => displayWithin around v :: displayAll around vs

/-- Entries of a mapping, each in one line. -/
def displayEntries (around : List Nat) : List (Atom × Value) → List String
  | [] => []
  | (k, v) :: es => (k.display ++ ": " ++ displayWithin around v) :: displayEntries around es

end

/-- A value in one line. -/
def display (v : Value) : String := v.displayWithin []

mutual

/-- Whether all integers in a value can be shown. -/
def isShowable : Value → Bool
  | atom a => a.isShowable
  | list items => allShowable items
  | map entries => entriesShowable entries
  | set elements => elements.all Atom.isShowable
  | pair key value => isShowable key && isShowable value
  | recurring _ content => isShowable content

/-- Whether all integers in values can be shown. -/
def allShowable : List Value → Bool
  | [] => true
  | v :: vs => isShowable v && allShowable vs

/-- Whether all integers in entries of a mapping can be shown. -/
def entriesShowable : List (Atom × Value) → Bool
  | [] => true
  | (k, v) :: es => k.isShowable && isShowable v && entriesShowable es

end

end Value

end DesignGraph.Yaml
