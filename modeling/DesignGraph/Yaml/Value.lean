import DesignGraph.Decimal.Binary64
import DesignGraph.Text.Utf8
import DesignGraph.Yaml.Moment

/-! # Values of a document

What a document says once its notation is read. An `Atom` is a value without parts; atoms alone can be
keys of a mapping and elements of a set. A key has one value: a later entry with the same key replaces
the value and keeps the place (`Value.insertEntry`). Keys are the same if they are equal as numbers, so
one, one point zero and the true value are one key (`Atom.sameKey`).

A document can name a list or a mapping and put it into itself. The value is then endless; `recurring` marks
such parts with a number that tells them apart, and where one occurs inside itself again nothing of it is
repeated. -/

namespace DesignGraph.Yaml

open Decimal (Binary64)

/-- A value without parts. -/
inductive Atom where
  | null
  | bool (b : Bool)
  | int (n : Int)
  | float (x : Binary64)
  /-- What is no number, written as the word for it or computed at a place of the document. -/
  | nan (place : Option Nat)
  | text (s : String)
  /-- Code points of which some are surrogates. -/
  | points (p : List Nat)
  | bytes (b : List UInt8)
  | date (d : Date)
  | moment (m : Moment)
  deriving DecidableEq, Repr

/-- A value of a document. -/
inductive Value where
  | atom (a : Atom)
  | list (items : List Value)
  | map (entries : List (Atom × Value))
  | set (elements : List Atom)
  /-- An entry of a mapping that keeps the order and repetitions of its keys. -/
  | pair (key value : Value)
  /-- A list or a mapping that occurs inside itself. -/
  | recurring (number : Nat) (content : Value)

namespace Atom

/-- The integer that a number or truth value is equal to. -/
def asInt? : Atom → Option Int
  | bool b => some (if b then 1 else 0)
  | int n => some n
  | float x => x.int?
  | _ => none

/-- Whether two atoms are the same key. -/
def sameKey (a b : Atom) : Bool :=
  match a, b with
  | moment m, moment n => m.isSame n
  | _, _ =>
    match a.asInt?, b.asInt? with
    | some m, some n => m == n
    | none, none => a == b
    | _, _ => false

/-- An atom as a text; bytes are one if they are UTF-8. -/
def text? : Atom → Option String
  | text s => some s
  | bytes b => (Text.decodeUtf8 b).toOption.map String.ofList
  | _ => none

/-- The null value, the false value, zero, and what is empty. -/
def isVacant : Atom → Bool
  | null => true
  | bool b => !b
  | int n => n == 0
  | float x => x.isZero
  | nan _ => false
  | text s => s == ""
  | points _ => false
  | bytes b => b.isEmpty
  | date _ => false
  | moment _ => false

end Atom

namespace Value

/-- The null value. -/
def null : Value := .atom .null

instance : Inhabited Value := ⟨null⟩

/-- A text. -/
def text (s : String) : Value := .atom (.text s)

/-- The null value, the false value, zero, and what is empty. -/
def isVacant : Value → Bool
  | atom a => a.isVacant
  | list items => items.isEmpty
  | map entries => entries.isEmpty
  | set elements => elements.isEmpty
  | pair _ _ => false
  | recurring _ _ => false

/-- The items of a list. -/
def items? : Value → Option (List Value)
  | list items => some items
  | recurring _ content => content.items?
  | _ => none

/-- The entries of a mapping. -/
def entries? : Value → Option (List (Atom × Value))
  | map entries => some entries
  | recurring _ content => content.entries?
  | _ => none

/-- Puts a value under a key: at the place of the same key if there is one, else behind all others. -/
def insertEntry {α : Type} (key : Atom) (value : α) : List (Atom × α) → List (Atom × α)
  | [] => [(key, value)]
  | (k, v) :: rest =>
    if k.sameKey key then (k, value) :: rest else (k, v) :: insertEntry key value rest

/-- The value under a key. -/
def lookup (key : Atom) (entries : List (Atom × Value)) : Option Value :=
  (entries.find? fun e => e.1.sameKey key).map (·.2)

/-- The value under a key that is a text. -/
def field (key : String) (entries : List (Atom × Value)) : Option Value := lookup (.text key) entries

/-- The atom, if the value is one. -/
def atom? : Value → Option Atom
  | atom a => some a
  | _ => none

/-- A value as a text. -/
def text? (v : Value) : Option String := v.atom?.bind Atom.text?

end Value

end DesignGraph.Yaml
