import DesignGraph.Store
import DesignGraph.Yaml.Grammar
import DesignGraph.Yaml.Outline
import DesignGraph.Yaml.Value.Display

/-! # The document of a graph

A graph is written as a mapping with the name of the format, its version, and the list of all hyperedges
in insertion order, each a mapping of its fields; endpoints and relation kinds are left out if there are
none (`Store.document`). Reading (`Document.store`) checks the format, if it is given, and entry by entry
the fields, which may be missing except for the uid: a label is then empty, a kind is that of concepts,
and there are no endpoints and no relation kind. Of entries with the same uid the first one stays. -/

namespace DesignGraph

open Yaml (Atom BadValue Fault Outline Value)

namespace Document

/-- The name of the format. -/
def formatName : String := "ontogen-hypergraph"

/-- Why a text is no document of a graph. -/
inductive Problem where
  /-- The text is not well formed. -/
  | malformed
  /-- A value in it names nothing. -/
  | badValue (e : BadValue)
  /-- There is no mapping with a list of hyperedges. -/
  | noList
  /-- Another format is named. -/
  | otherFormat (name : Value)
  /-- An entry of the list has no uid. -/
  | noUid (index : Nat)
  /-- An entry of the list has a field of the wrong type. -/
  | badField (index : Nat) (uid : Value)
  /-- An entry of the list has an unknown kind. -/
  | badKind (index : Nat) (uid kind : Value)

namespace Problem

/-- The wording of a problem. -/
def message : Problem → String
  | malformed => "Invalid YAML"
  | badValue e => e.message
  | noList => "Graph document must be a mapping with a 'hyperedges' list"
  | otherFormat name => "Unsupported graph format: " ++ name.display
  | noUid index => "Hyperedge #" ++ toString index ++ " has no uid"
  | badField index uid => invalid index uid
  | badKind index uid kind =>
    invalid index uid ++ ": " ++
      if kind.isShowable then kind.display ++ " is not a valid HyperedgeKind"
      else BadValue.unshowable.message
where
  /-- Which entry is at fault. -/
  invalid (index : Nat) (uid : Value) : String :=
    "Hyperedge #" ++ toString index ++ " (" ++ uid.display ++ ") is invalid"

/-- A problem that names a value, unless the value cannot be shown: then that is the problem. -/
def naming (v : Value) (p : Problem) : Problem := if v.isShowable then p else .badValue .unshowable

end Problem

/-! ### Writing -/

/-- A list of texts under a key, unless it is empty. -/
def endpointField (key : String) (uids : List Uid) : List (String × Outline) :=
  if uids.isEmpty then [] else [(key, .list (uids.map .text))]

/-- A hyperedge as an entry of the list. -/
def entry (e : Hyperedge) : List (String × Outline) :=
  [("uid", .text e.uid), ("label", .text e.label), ("kind", .text e.kind.name)] ++
    endpointField "from" e.sources ++ endpointField "to" e.targets ++
    ((e.relation.filter (· != "")).toList.map fun r => ("relation", .text r))

/-! ### Reading -/

/-- A field that may be missing or vacant, and is the default then. -/
def optional {α : Type} (default : α) (read : Value → Option α) : Option Value → Option α
  | none => some default
  | some v => if v.isVacant then some default else read v

/-- A list or a set as uids. -/
def uids? (v : Value) : Option (List Uid) :=
  match v with
  | .set elements => elements.mapM Atom.text?
  | _ => v.items?.bind fun items => items.mapM Value.text?

/-- The relation kind of an entry, which may be missing or null. -/
def relation? : Option Value → Option (Option Uid)
  | none => some none
  | some (.atom .null) => some none
  | some v => v.text?.map some

/-- The kind of an entry, that of concepts if it is missing; or the value that is no kind. -/
def kind : Option Value → Except Value Kind
  | none => .ok .concept
  | some v =>
    match v with
    | .atom (.text name) => (Kind.ofName? name).elim (.error v) .ok
    | _ => .error v

/-- The fields of an entry of a known kind. -/
def fields? (k : Kind) (uid : Value) (entries : List (Atom × Value)) : Option Hyperedge := do
  let get := fun key => Value.field key entries
  return {
    uid := ← uid.text?
    label := ← optional "" Value.text? (get "label")
    kind := k
    sources := ← optional [] uids? (get "from")
    targets := ← optional [] uids? (get "to")
    relation := ← relation? (get "relation") }

/-- An entry of the list, at its place in it. -/
def edge (index : Nat) (v : Value) : Except Problem Hyperedge :=
  match v.entries? with
  | none => .error (.noUid index)
  | some entries =>
    match Value.field "uid" entries with
    | none => .error (.noUid index)
    | some uid =>
      match kind (Value.field "kind" entries) with
      | .error v => .error (.naming uid (.badKind index uid v))
      | .ok k => (fields? k uid entries).elim (.error (.naming uid (.badField index uid))) .ok

/-- The entries of the list, from a place on. -/
def edges : Nat → List Value → Except Problem (List Hyperedge)
  | _, [] => .ok []
  | index, v :: vs => do
    let e ← edge index v
    return e :: (← edges (index + 1) vs)

/-- The list of hyperedges of a document, which may be missing. -/
def list? (v : Value) : Option (List Value) := do
  ((Value.field "hyperedges" (← v.entries?)).getD (.list [])).items?

/-- Whether a value is the name of the format. -/
def isFormatName : Value → Bool
  | .atom (.text name) => name == formatName
  | _ => false

/-- The list of a document whose header is in order. -/
def list (v : Value) : Except Problem (List Value) :=
  if v.isVacant then .ok []
  else match list? v, v.entries?.bind (Value.field "format") with
    | none, _ => .error .noList
    | some items, none => .ok items
    | some items, some format =>
      if isFormatName format then .ok items else .error (.naming format (.otherFormat format))

/-- The graph that a document describes. -/
def store (v : Value) : Except Problem Store := do
  let items ← list v
  return .ofEdges (← edges 0 items)

/-- The graph that a text describes. -/
def read (text : String) : Except Problem Store :=
  match Yaml.read text with
  | .error (.badValue e) => .error (.badValue e)
  | .error _ => .error .malformed
  | .ok v => store v

end Document

/-- The document of a graph. -/
def Store.document (g : Store) : List (String × Outline) := [
  ("format", .text Document.formatName),
  ("version", .int 1),
  ("hyperedges", .list (g.edges.map fun e => .map (Document.entry e)))]

/-- The text of the document of a graph. -/
def Store.toYaml (g : Store) : String := Outline.document true g.document

end DesignGraph
