import DesignGraph.Yaml.Timestamp

/-! # The type of plain text

Plain text of a certain form stands for something other than text: a truth value, a number, a date, the
null value, or one of the two signs with a meaning as keys. `implicit` names the type that plain text is
taken for, by the rules of version 1.1 of the markup language. Other text may be read by the same rules; it
may then end with a line feed. -/

namespace DesignGraph.Yaml

/-- The type that plain text is taken for. -/
inductive Implicit where
  | text
  | null
  | bool
  | int
  | float
  | timestamp
  /-- The sign `<<`, which merges mappings. -/
  | merge
  /-- The sign `=`, which gives the value of a mapping. -/
  | value
  deriving DecidableEq, Repr

namespace Implicit

/-- The words for truth values, with what they mean. -/
def boolWords : List (String × Bool) := [
  ("yes", true), ("no", false), ("true", true), ("false", false), ("on", true), ("off", false)]

/-- A word in lower case, capitalized and in upper case. -/
def spellings (word : String) : List String := [word, word.capitalize, word.toUpper]

/-- Whether plain text is a truth value. -/
def isBool (text : String) : Bool := boolWords.any fun w => (spellings w.1).contains text

/-- Whether plain text is the null value. -/
def isNull (text : String) : Bool := ["", "~", "null", "Null", "NULL"].contains text

/-! ### Numbers -/

/-- Decimal digits and underscores. -/
def isDigitOrGap (c : Char) : Bool := c.isDigit || c == '_'

/-- The text without a sign in front. -/
def dropSign : List Char → List Char
  | c :: r => if c = '+' ∨ c = '-' then r else c :: r
  | [] => []

/-- Whether a text is a list of groups for base sixty, each a colon with one digit or two below sixty. -/
def isSixties : List Char → Bool
  | [] => true
  | ':' :: a :: r =>
    a.isDigit &&
      match r with
      | b :: s => if b.isDigit then a ≤ '5' && isSixties s else isSixties (b :: s)
      | [] => true
  | _ => false

/-- A sign, digits that start with one that is not zero, and one or more groups for base sixty. -/
def isSixtyInt (text : List Char) : Bool :=
  match text with
  | c :: r => '1' ≤ c && c ≤ '9' &&
    let groups := r.dropWhile isDigitOrGap
    !groups.isEmpty && isSixties groups
  | [] => false

/-- Whether text without a sign is an integer. -/
def isUnsignedInt : List Char → Bool
  | '0' :: 'b' :: r => !r.isEmpty && r.all fun c => c == '0' || c == '1' || c == '_'
  | '0' :: 'x' :: r => !r.isEmpty && r.all fun c =>
      isDigitOrGap c || ('a' ≤ c && c ≤ 'f') || ('A' ≤ c && c ≤ 'F')
  | '0' :: r => r.all fun c => ('0' ≤ c && c ≤ '7') || c == '_'
  | c :: r => ('1' ≤ c && c ≤ '9' && r.all isDigitOrGap) || isSixtyInt (c :: r)
  | [] => false

/-- Whether plain text is an integer. -/
def isInt (text : List Char) : Bool := isUnsignedInt (dropSign text)

/-- Whether a text is nothing, or an exponent with its sign. -/
def isExponent : List Char → Bool
  | [] => true
  | e :: s :: r => (e == 'e' || e == 'E') && (s == '+' || s == '-') && !r.isEmpty && r.all Char.isDigit
  | _ => false

/-- Whether text without a sign that starts with a digit is a floating-point number: after the digits come
a point, more digits and an exponent, or groups for base sixty, a point and more digits. -/
def isUnsignedFloat (text : List Char) : Bool :=
  match text with
  | c :: r => c.isDigit &&
    match r.dropWhile isDigitOrGap with
    | '.' :: s => isExponent (s.dropWhile isDigitOrGap)
    | ':' :: s =>
      let groups := ':' :: s.takeWhile (· != '.')
      isSixties groups &&
        match s.dropWhile (· != '.') with
        | '.' :: s => s.all isDigitOrGap
        | _ => false
    | _ => false
  | [] => false

/-- Whether plain text is a floating-point number. -/
def isFloat (text : List Char) : Bool :=
  isUnsignedFloat (dropSign text) ||
    (match text with
      | '.' :: c :: r => c.isDigit && isExponent (r.dropWhile isDigitOrGap)
      | _ => false) ||
    [".inf", ".Inf", ".INF"].contains (String.ofList (dropSign text)) ||
    [".nan", ".NaN", ".NAN"].contains (String.ofList text)

end Implicit

/-- The type that a line of plain text is taken for. -/
def implicitLine (text : String) : Implicit :=
  let chars := text.toList
  if Implicit.isBool text then .bool
  else if Implicit.isFloat chars then .float
  else if Implicit.isInt chars then .int
  else if text = "<<" then .merge
  else if Implicit.isNull text then .null
  else if Timestamp.isRecognized chars then .timestamp
  else if text = "=" then .value
  else .text

/-- A text without the line feed that ends it, unless there is nothing in front of it. -/
def dropLineFeed (text : String) : String :=
  let chars := text.toList
  if chars.getLast? = some '\n' ∧ chars.length ≠ 1 then String.ofList chars.dropLast else text

/-- The type that plain text is taken for, where a line feed may end the text. -/
def implicit (text : String) : Implicit := implicitLine (dropLineFeed text)

end DesignGraph.Yaml
