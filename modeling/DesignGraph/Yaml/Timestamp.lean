import DesignGraph.Yaml.Character

/-! # Timestamps

A timestamp is a date or a date with a time of day, a fraction of a second and an offset. `read?` reads
one leniently, with months and days of one or two digits; `isCanonicalDate` is the stricter form, four
digits, two and two, in which a date without a time is recognized in plain text. -/

namespace DesignGraph.Yaml

/-- An offset from universal time as it is written. -/
inductive Offset where
  /-- None is given. -/
  | none
  /-- Universal time. -/
  | zulu
  /-- Hours and minutes, ahead or behind. -/
  | hoursMinutes (behind : Bool) (hours minutes : Nat)
  deriving DecidableEq, Repr

/-- A time of day as it is written; the digits of the fraction are kept as they are. -/
structure ClockTime where
  hour : Nat
  minute : Nat
  second : Nat
  fraction : List Char
  offset : Offset
  deriving DecidableEq, Repr

/-- A date, with or without a time of day, as it is written. -/
structure Timestamp where
  year : Nat
  month : Nat
  day : Nat
  clock : Option ClockTime
  deriving DecidableEq, Repr

namespace Timestamp

/-- Takes at least `least` and at most `most` digits from the front of a text. -/
def takeDigits (least most : Nat) (text : List Char) : Option (Nat × List Char) :=
  let digits := (text.take most).takeWhile Char.isDigit
  if digits.length < least then none else some (decimalNumber digits, text.drop digits.length)

/-- Takes one given character from the front of a text. -/
def takeChar (c : Char) : List Char → Option (List Char)
  | [] => none
  | d :: r => if d = c then some r else none

/-- Leaves out blanks and tabs. -/
def dropBlanks (text : List Char) : List Char := text.dropWhile fun c => c == ' ' || c == '\t'

/-- What parts a date from a time of day: the letter T, or blanks. -/
def takeGap : List Char → Option (List Char)
  | [] => none
  | c :: r =>
    if c = 'T' ∨ c = 't' then some r
    else if c = ' ' ∨ c = '\t' then some (dropBlanks r)
    else none

/-- The digits of a fraction, if there is one. -/
def takeFraction : List Char → List Char × List Char
  | '.' :: r => (r.takeWhile Char.isDigit, r.dropWhile Char.isDigit)
  | text => ([], text)

/-- An offset that ends the text. -/
def readOffset? (text : List Char) : Option Offset :=
  match dropBlanks text with
  | [] => if text.isEmpty then some .none else none
  | 'Z' :: r => if r.isEmpty then some .zulu else none
  | c :: r =>
    if c = '+' ∨ c = '-' then do
      let (hours, r) ← takeDigits 1 2 r
      if r.isEmpty then return .hoursMinutes (c == '-') hours 0
      let (minutes, r) ← takeDigits 2 2 (← takeChar ':' r)
      if r.isEmpty then some (.hoursMinutes (c == '-') hours minutes) else none
    else none

/-- A time of day that ends the text. -/
def readClock? (text : List Char) : Option ClockTime := do
  let (hour, r) ← takeDigits 1 2 text
  let (minute, r) ← takeDigits 2 2 (← takeChar ':' r)
  let (second, r) ← takeDigits 2 2 (← takeChar ':' r)
  let (fraction, r) := takeFraction r
  return ⟨hour, minute, second, fraction, ← readOffset? r⟩

/-- A date at the front of a text. -/
def takeDate (text : List Char) : Option (Nat × Nat × Nat × List Char) := do
  let (year, r) ← takeDigits 4 4 text
  let (month, r) ← takeDigits 1 2 (← takeChar '-' r)
  let (day, r) ← takeDigits 1 2 (← takeChar '-' r)
  return (year, month, day, r)

/-- A whole text as a timestamp. -/
def read? (text : List Char) : Option Timestamp := do
  let (year, month, day, r) ← takeDate text
  if r.isEmpty then return ⟨year, month, day, none⟩
  return ⟨year, month, day, some (← readClock? (← takeGap r))⟩

/-- A whole text as a timestamp, where a line feed may end it. -/
def readLine? (text : List Char) : Option Timestamp :=
  read? (if text.getLast? = some '\n' then text.dropLast else text)

/-- Whether a text is a date of four digits, two and two. -/
def isCanonicalDate (text : List Char) : Bool := text.length == 10 && (read? text).isSome

/-- Whether plain text is taken for a timestamp. -/
def isRecognized (text : List Char) : Bool :=
  match read? text with
  | none => false
  | some t => t.clock.isSome || isCanonicalDate text

end Timestamp

end DesignGraph.Yaml
