import DesignGraph.Yaml.Node.Meaning

/-! # The value of a node

What nodes stand for is unfolded to a value (`Meanings.value`). A node that leads to no collection inside
itself has one value, which is made once (`Meanings.close`). Any other one is unfolded until a collection
comes again inside itself.

A value is looked into from its root, from a field of the root, or from a field of an item of a list there.
What is repeated is told from that place on. So the first `freeLevels` levels do not count as being inside
of one another, and the value is deep enough wherever one starts. -/

namespace DesignGraph.Yaml

namespace Meaning

/-- The value of a meaning, if all its parts have one. -/
def value? {m : Type → Type} [Monad m] (part : NodeId → m (Option Value)) :
    Meaning → m (Option Value)
  | atom a => return some (.atom a)
  | set elements => return some (.set elements)
  | list items => do
    let parts ← items.mapM part
    return (parts.mapM id).map .list
  | map entries => do
    let parts ← entries.mapM fun e => return (← part e.2).map fun v => (e.1, v)
    return (parts.mapM id).map .map
  | pairs entries => do
    let parts ← entries.mapM fun e => do
      let key? ← part e.1
      let value? ← part e.2
      return key?.bind fun key => value?.map fun value => Value.pair key value
    return (parts.mapM id).map .list

/-- A collection without its parts. -/
def bare : Meaning → Value
  | map _ => .map []
  | _ => .list []

end Meaning

namespace Meanings

/-- The values of nodes that lead to no collection inside itself, as far as they are known; none for a node
that leads to one, or of which this is still open. -/
abbrev Closed := Array (Option (Option Value))

/-- The value of a node, if it leads to no collection inside itself. A node that is come upon while its
parts are looked at lies inside itself. -/
def close (ms : Meanings) : Nat → NodeId → StateM Closed (Option Value)
  | 0, _ => return none
  | n + 1, id => do
    match (← get)[id]? with
    | some (some known) => return known
    | _ =>
      modify fun c => c.setIfInBounds id (some none)
      match ms.find? id with
      | none => return none
      | some m =>
        let value? ← m.value? (ms.close n)
        modify fun c => c.setIfInBounds id (some value?)
        return value?

/-- The levels of a value that do not count as being inside of one another. -/
def freeLevels : Nat := 3

/-- The value of a node at a level below the root, inside of some other nodes; of a node that is one of them
nothing is repeated. -/
def unfold (ms : Meanings) (closed : Closed) :
    Nat → (level : Nat) → (around : List NodeId) → NodeId → Value
  | 0, _, _, _ => .null
  | n + 1, level, around, id =>
    match closed[id]?.join.join, ms.find? id with
    | some v, _ => v
    | none, none => .null
    | none, some m =>
      if around.contains id then .recurring id m.bare
      else
        let around := if level < freeLevels then [] else id :: around
        .recurring id ((Id.run (m.value? fun part =>
          some (ms.unfold closed n (level + 1) around part))).getD m.bare)

/-- The value of a node. -/
def value (ms : Meanings) (root : NodeId) : Value :=
  let (_, closed) := (ms.close (ms.size + 1) root).run (Array.replicate ms.size none)
  ms.unfold closed (ms.size + freeLevels + 2) 0 [] root

end Meanings

/-- The value of a node of a document. -/
def Nodes.value (ns : Nodes) (root : NodeId) : Except Fault Value := do
  return (← ns.meanings root).value root

end DesignGraph.Yaml
