import DesignGraph.Text.Utf8

/-! # Faults of a document

A document that is not well formed, or asks for a value that cannot be built, is `malformed`. Some values
are recognized by their form and turn out to name nothing when they are computed: these faults say what
was wrong with the value (`BadValue`). The file of a document may be no text from some place on. -/

namespace DesignGraph.Yaml

/-- A value that has the form of its type and names nothing. -/
inductive BadValue where
  /-- A code point beyond the last one. -/
  | codePoint
  /-- A code point beyond what a machine word holds. -/
  | codePointWord
  /-- An integer without digits, or with a character that is no digit of its base. -/
  | integer (base : Nat) (shown : String)
  /-- More decimal digits than an integer may have. -/
  | longInteger (digits : Nat)
  /-- An integer that has too many decimal digits to be shown. -/
  | unshowable
  /-- A floating-point number in an unknown form. -/
  | float (shown : String)
  /-- So many digits in base sixty that the value of the first place is out of range. -/
  | sixties
  /-- A number without any character. -/
  | emptyNumber
  /-- A word that is no truth value. -/
  | truth (shown : String)
  /-- Text that is no timestamp. -/
  | timestamp
  /-- A mapping in place of the text of a timestamp. -/
  | timestampMapping
  /-- Mappings in place of a scalar that lead to one another without end. -/
  | endless
  | year (n : Nat)
  | month
  | day
  | hour
  | minute
  | second
  /-- An offset from universal time of a day or more: days and seconds of it. -/
  | offset (days : Int) (seconds : Nat)
  deriving DecidableEq, Repr

/-- A length of time in days and seconds. -/
def duration (days : Int) (seconds : Nat) : String :=
  let parts := (if days = 0 then [] else ["days=" ++ toString days]) ++
    (if seconds = 0 then [] else ["seconds=" ++ toString seconds])
  "datetime.timedelta(" ++ (if parts.isEmpty then "0" else ", ".intercalate parts) ++ ")"

namespace BadValue

/-- How much of a text that is no integer is shown. -/
def shownLength : Nat := 200

/-- What was wrong with the value. -/
def message : BadValue → String
  | codePoint => "chr() arg not in range(0x110000)"
  | codePointWord => "Python int too large to convert to C int"
  | integer base shown =>
    "invalid literal for int() with base " ++ toString base ++ ": " ++ (shown.take shownLength).copy
  | longInteger digits =>
    "Exceeds the limit (4300 digits) for integer string conversion: value has " ++ toString digits ++
      " digits; use sys.set_int_max_str_digits() to increase the limit"
  | unshowable =>
    "Exceeds the limit (4300 digits) for integer string conversion; " ++
      "use sys.set_int_max_str_digits() to increase the limit"
  | float shown => "could not convert string to float: " ++ shown
  | sixties => "int too large to convert to float"
  | emptyNumber => "string index out of range"
  | truth shown => shown
  | timestamp => "'NoneType' object has no attribute 'groupdict'"
  | timestampMapping => "expected string or bytes-like object, got 'list'"
  | endless => "maximum recursion depth exceeded"
  | year n => "year " ++ toString n ++ " is out of range"
  | month => "month must be in 1..12"
  | day => "day is out of range for month"
  | hour => "hour must be in 0..23"
  | minute => "minute must be in 0..59"
  | second => "second must be in 0..59"
  | offset days seconds =>
    "offset must be a timedelta strictly between -timedelta(hours=24) and timedelta(hours=24), not " ++
      duration days seconds ++ "."

end BadValue

/-- Why a document has no value. -/
inductive Fault where
  /-- The text is no document. -/
  | malformed
  /-- A value in it names nothing. -/
  | badValue (e : BadValue)
  /-- The bytes of the file are no text. -/
  | noText (e : Text.Utf8Error)
  deriving DecidableEq, Repr

end DesignGraph.Yaml
