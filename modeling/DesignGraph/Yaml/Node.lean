import DesignGraph.Yaml.Letters
import DesignGraph.Yaml.Tag

/-! # Nodes of a document

A node is a scalar, a sequence or a mapping with a type. An alias stands for the node it names, so one node
may occur at several places, even inside itself: nodes are therefore kept by numbers (`Nodes`), and the
parts of a collection are numbers of nodes. -/

namespace DesignGraph.Yaml

/-- The number of a node. -/
abbrev NodeId := Nat

/-- A key and a value of a mapping. -/
abbrev Entry := NodeId × NodeId

/-- What a node consists of. -/
inductive Content where
  | scalar (letters : Letters)
  | sequence (items : List NodeId)
  | mapping (entries : List Entry)
  deriving DecidableEq, Repr

/-- A node of a document. -/
structure Node where
  tag : Tag
  content : Content
  deriving DecidableEq, Repr

/-- The nodes of a document by their numbers. -/
structure Nodes where
  toArray : Array Node

namespace Nodes

/-- No nodes. -/
def empty : Nodes := ⟨#[]⟩

/-- How many nodes there are. -/
def size (ns : Nodes) : Nat := ns.toArray.size

/-- Adds a node under the next number. -/
def push (ns : Nodes) (n : Node) : Nodes := ⟨ns.toArray.push n⟩

/-- The node with a number. -/
def get? (ns : Nodes) (id : NodeId) : Option Node := ns.toArray[id]?

/-- Changes the node with a number. -/
def modify (ns : Nodes) (id : NodeId) (f : Node → Node) : Nodes := ⟨ns.toArray.modify id f⟩

/-- Gives a node other parts. -/
def setContent (ns : Nodes) (id : NodeId) (content : Content) : Nodes :=
  ns.modify id fun n => { n with content }

/-- Gives a node another type. -/
def setTag (ns : Nodes) (id : NodeId) (tag : Tag) : Nodes := ns.modify id fun n => { n with tag }

/-- Whether a node has a type. -/
def hasTag (ns : Nodes) (tag : Tag) (id : NodeId) : Bool := (ns.get? id).any (·.tag == tag)

/-- The items of a sequence. -/
def items? (ns : Nodes) (id : NodeId) : Option (List NodeId) :=
  match ns.get? id with
  | some ⟨_, .sequence items⟩ => some items
  | _ => none

/-- The entries of a mapping. -/
def entries? (ns : Nodes) (id : NodeId) : Option (List Entry) :=
  match ns.get? id with
  | some ⟨_, .mapping entries⟩ => some entries
  | _ => none

end Nodes

end DesignGraph.Yaml
