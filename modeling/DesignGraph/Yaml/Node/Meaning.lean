import DesignGraph.Yaml.Node.Merge
import DesignGraph.Yaml.Node.Scalar

/-! # What nodes stand for

The meaning of a node is an atom or a collection of other nodes. It is found once for each node that the
root leads to (`Nodes.meanings`): for a scalar at once, for a collection in two steps. It is empty when the
node is come upon, and is filled later, in the order in which the collections are come upon. This order
decides which one of several faults is told, and what a mapping takes in from one around it.

The keys of mappings are atoms. A list of entries is written as a list of mappings with one entry each. -/

namespace DesignGraph.Yaml

/-- What a node stands for. -/
inductive Meaning where
  | atom (a : Atom)
  | list (items : List NodeId)
  | map (entries : List (Atom × NodeId))
  | set (elements : List Atom)
  | pairs (entries : List Entry)

/-- What the nodes of a document stand for, by their numbers. -/
abbrev Meanings := Array (Option Meaning)

/-- The meaning of a node. -/
def Meanings.find? (ms : Meanings) (id : NodeId) : Option Meaning := ms[id]?.join

/-- A collection of a type before it is filled. -/
def Tag.emptyMeaning? : Tag → Option Meaning
  | list => some (.list [])
  | map => some (.map [])
  | set => some (.set [])
  | pairs => some (.pairs [])
  | _ => none

/-- What is known so far: the collections that wait to be filled are in the order in which they were come
upon. -/
structure Survey where
  nodes : Nodes
  meanings : Meanings
  waiting : Std.Queue NodeId

/-- Finding out what nodes stand for. -/
abbrev Finding := StateT Survey (Except Fault)

namespace Finding

/-- Notes what a node stands for. -/
def note (id : NodeId) (m : Meaning) : Finding Unit :=
  modify fun s => { s with meanings := s.meanings.setIfInBounds id (some m) }

/-- Comes upon a node. -/
def visit (id : NodeId) : Finding Unit := do
  let s ← get
  if (s.meanings.find? id).isSome then return
  let some node := s.nodes.get? id | throw .malformed
  match node.tag.emptyMeaning? with
  | some m =>
    note id m
    modify fun s => { s with waiting := s.waiting.enqueue id }
  | none => note id (.atom (← s.nodes.atom node.tag id))

/-- Comes upon a node that must be an atom. -/
def visitKey (id : NodeId) : Finding Atom := do
  visit id
  match (← get).meanings.find? id with
  | some (.atom a) => return a
  | _ => throw .malformed

/-- The items of a sequence, come upon one after the other. -/
def listItems (id : NodeId) : Finding (List NodeId) := do
  let some items := (← get).nodes.items? id | throw .malformed
  items.forM visit
  return items

/-- The entries of a mapping with those it takes in, come upon one after the other. -/
def mapEntries (depth : Nat) (id : NodeId) : Finding (List (Atom × NodeId)) := do
  let s ← get
  if (s.nodes.entries? id).isNone then throw .malformed
  let nodes ← s.nodes.settle depth id |> liftM
  set { s with nodes }
  ((nodes.entries? id).getD []).foldlM (fun done e => do
    let key ← visitKey e.1
    visit e.2
    return Value.insertEntry key e.2 done) []

/-- The entries of a sequence of mappings with one entry each, come upon one after the other. -/
def pairEntries (id : NodeId) : Finding (List Entry) := do
  let some items := (← get).nodes.items? id | throw .malformed
  items.mapM fun item => do
    match (← get).nodes.entries? item with
    | some [e] =>
      visit e.1
      visit e.2
      return e
    | _ => throw .malformed

/-- Fills a collection. -/
def fill (depth : Nat) (id : NodeId) : Finding Unit := do
  match (← get).meanings.find? id with
  | some (.list _) => note id (.list (← listItems id))
  | some (.map _) => note id (.map (← mapEntries depth id))
  | some (.set _) => note id (.set ((← mapEntries depth id).map (·.1)))
  | some (.pairs _) => note id (.pairs (← pairEntries id))
  | _ => return

/-- Fills the collections that wait; at most `n` are filled. -/
def fillAll (depth : Nat) : Nat → Finding Unit
  | 0 => return
  | n + 1 => do
    match (← get).waiting.dequeue? with
    | none => return
    | some (id, waiting) =>
      modify fun s => { s with waiting }
      fill depth id
      fillAll depth n

end Finding

/-- What the nodes stand for that a root leads to. Each of them waits at most once. -/
def Nodes.meanings (ns : Nodes) (root : NodeId) : Except Fault Meanings := do
  let find : Finding Unit := do
    Finding.visit root
    Finding.fillAll ns.mergeDepth ns.size
  let (_, s) ← find.run ⟨ns, Array.replicate ns.size none, .empty⟩
  return s.meanings

end DesignGraph.Yaml
