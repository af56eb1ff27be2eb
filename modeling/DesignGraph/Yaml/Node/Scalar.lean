import DesignGraph.Text.Base64
import DesignGraph.Yaml.Node
import DesignGraph.Yaml.Value
import DesignGraph.Yaml.Value.Number

/-! # Values of scalars

`Nodes.atom` gives the value of a node whose type is written as a scalar. Where a scalar is asked for and a
mapping given, its value under the key `=` is taken instead, if there is such a key. -/

namespace DesignGraph.Yaml

/-- The value of a word for a truth value, in any case. -/
def readBool (l : Letters) : Except BadValue Bool :=
  let word := Text.lowerCaseText l.chars
  match Implicit.boolWords.lookup (String.ofList word) with
  | some b => .ok b
  | none => .error (.truth (l.shown word))

/-- The value of text that is said to be a timestamp. -/
def readTimestamp (l : Letters) : Except BadValue Atom :=
  match Timestamp.readLine? l.chars with
  | none => .error .timestamp
  | some t =>
    match t.clock with
    | none => t.date.map .date
    | some c => (t.moment c).map .moment

/-- The bytes that text stands for. -/
def readBytes? (l : Letters) : Option (List UInt8) :=
  if l.chars.all (·.toNat < 128) then Text.base64? l.chars else none

/-- The value of letters of a type that stand at a node. -/
def readScalar (tag : Tag) (place : NodeId) (l : Letters) : Except Fault Atom :=
  match tag with
  | .text => .ok (match l with
    | .text s => .text s
    | .points p => .points p)
  | .null => .ok .null
  | .bool => (readBool l).map .bool |>.mapError .badValue
  | .int => (readInt l.shown l.chars).map .int |>.mapError .badValue
  | .float =>
    match readFloat l.shown l.chars with
    | .error e => .error (.badValue e)
    | .ok .word => .ok (.nan none)
    | .ok (.number x) => .ok (if x.isNan then .nan (some place) else .float x)
  | .timestamp => (readTimestamp l).mapError .badValue
  | .binary => (readBytes? l).elim (.error .malformed) fun b => .ok (.bytes b)
  | _ => .error .malformed

namespace Nodes

/-- The letters that a node gives where a scalar is asked for; more mappings than there are nodes cannot
lead to one another. -/
def letters (ns : Nodes) : Nat → NodeId → Except Fault Letters
  | 0, _ => .error (.badValue .endless)
  | n + 1, id =>
    match ns.get? id with
    | some ⟨_, .scalar l⟩ => .ok l
    | some ⟨_, .mapping entries⟩ =>
      match entries.find? fun e => ns.hasTag .value e.1 with
      | some e => ns.letters n e.2
      | none => .error .malformed
    | _ => .error .malformed

/-- The value of a node of a type that is written as a scalar. -/
def atom (ns : Nodes) (tag : Tag) (id : NodeId) : Except Fault Atom :=
  match tag with
  | .merge | .value | .unknown => .error .malformed
  | _ => do
    let l ← ns.letters (ns.size + 1) id
    if tag = .timestamp ∧ (ns.entries? id).isSome then throw (.badValue .timestampMapping)
    readScalar tag id l

end Nodes

end DesignGraph.Yaml
