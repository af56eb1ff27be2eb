import DesignGraph.Yaml.Fault
import DesignGraph.Yaml.Node

/-! # Mappings that take in others

The key `<<` of a mapping names a mapping, or a list of mappings, whose entries are taken in: in front of its
own, of a list those of the last mapping first. The key `=` is a text there. Both are settled when the
values of the mapping are built (`Nodes.settle`), and once settled a mapping stays so, also where another
one takes it in or an alias stands for one of its keys.

A mapping may take in one that it lies in and that is only now being settled. What it gets are the entries
which that one has at the time. Every call of `Nodes.settle` within another one follows the removal of a
key `<<`, so their number bounds the depth of calls; the functions count down from there. -/

namespace DesignGraph.Yaml.Nodes

/-- Takes the first key `<<` out of a mapping: the other entries, and what is to be taken in. -/
def takeMerge (ns : Nodes) : List Entry → Option (NodeId × List Entry)
  | [] => none
  | (key, value) :: rest =>
    if ns.hasTag .merge key then some (value, rest)
    else (ns.takeMerge rest).map fun (found, rest) => (found, (key, value) :: rest)

/-- The number of keys `<<`. -/
def mergeCount (ns : Nodes) : Nat :=
  ns.toArray.toList.foldl (fun total n => match n.content with
    | .mapping entries => total + entries.countP fun e => ns.hasTag .merge e.1
    | _ => total) 0

/-- Makes the keys `=` of some entries texts. -/
def keysAsText (ns : Nodes) (entries : List Entry) : Nodes :=
  entries.foldl (fun ns e => if ns.hasTag .value e.1 then ns.setTag e.1 .text else ns) ns

mutual

/-- Settles a mapping; `mergeDepth` calls are enough. -/
def settle : Nat → NodeId → Nodes → Except Fault Nodes
  | 0, _, _ => .error .malformed
  | n + 1, id, ns => do
    let (taken, ns) ← takeIn n id ns
    let entries := (ns.entries? id).getD []
    let ns := ns.keysAsText entries
    return if taken.isEmpty then ns else ns.setContent id (.mapping (taken ++ entries))

/-- The entries that a mapping takes in, and the nodes without its keys `<<`. -/
def takeIn : Nat → NodeId → Nodes → Except Fault (List Entry × Nodes)
  | 0, _, _ => .error .malformed
  | n + 1, id, ns =>
    match (ns.entries? id).bind ns.takeMerge with
    | none => .ok ([], ns)
    | some (source, rest) => do
      let (taken, ns) ← entriesOf n source (ns.setContent id (.mapping rest))
      let (more, ns) ← takeIn n id ns
      return (taken ++ more, ns)

/-- The entries that the value of a key `<<` stands for. -/
def entriesOf : Nat → NodeId → Nodes → Except Fault (List Entry × Nodes)
  | 0, _, _ => .error .malformed
  | n + 1, id, ns =>
    match ns.items? id with
    | none => settledEntries n id ns
    | some items =>
      items.foldlM (fun (later, ns) item => do
        let (entries, ns) ← settledEntries n item ns
        return (entries ++ later, ns)) ([], ns)

/-- The entries of a mapping once it is settled. -/
def settledEntries : Nat → NodeId → Nodes → Except Fault (List Entry × Nodes)
  | 0, _, _ => .error .malformed
  | n + 1, id, ns =>
    if (ns.entries? id).isNone then .error .malformed
    else do
      let ns ← settle n id ns
      return ((ns.entries? id).getD [], ns)

end

/-- How deep calls go at most when a mapping is settled. -/
def mergeDepth (ns : Nodes) : Nat := 4 * ns.mergeCount + 4

end DesignGraph.Yaml.Nodes
