import DesignGraph.Relation.Assertion

/-! # The index of facts

A query about facts need not look at every edge. An `Index` lists for each uid the facts that lead from it
and the facts that lead to it, in the order in which they were stored, and keeps for each kind with a set
of sources and a set of targets the first fact that was stored with them. It is written at one place only,
where an edge is stored (`Indexed.insert`), and never taken back: a label does not occur in it.

The queries and assertions of an `Indexed` store read the index where those of a `Store` look at all
edges. -/

namespace DesignGraph

/-- What identifies a fact: its relation kind and the sets of its sources and of its targets. -/
structure FactKey where
  relation : Uid
  sources : UidSet
  targets : UidSet
  deriving DecidableEq

/-- The facts at each uid, and the fact of each key. -/
structure Index where
  outgoing : Uid → List Uid
  incoming : Uid → List Uid
  facts : FactKey → Option Uid

namespace Index

/-- The index of a store without facts. -/
def empty : Index := ⟨fun _ => [], fun _ => [], fun _ => none⟩

/-- Appends a fact to the list of each of these uids. -/
def enlist (lists : Uid → List Uid) (fact : Uid) (uids : List Uid) : Uid → List Uid :=
  uids.foldl (fun lists u v => if v = u then lists v ++ [fact] else lists v) lists

/-- Enters an edge that has been stored, if it asserts something. A key that is taken keeps its fact. -/
def add (x : Index) (e : Hyperedge) : Index :=
  match e.asserts? with
  | none => x
  | some r => {
    outgoing := enlist x.outgoing e.uid e.sources
    incoming := enlist x.incoming e.uid e.targets
    facts := fun k =>
      if k = ⟨r, .ofList e.sources, .ofList e.targets⟩ then (x.facts k).or (some e.uid)
      else x.facts k }

end Index

/-- A store with its index. -/
structure Indexed where
  store : Store
  index : Index

namespace Indexed

/-- The store without edges. -/
def empty : Indexed := ⟨.empty, .empty⟩

/-- Stores an edge and enters it as it was stored. A known uid keeps its edge and its entries. -/
def insert (x : Indexed) (e : Hyperedge) : Indexed :=
  if e.uid ∈ x.store then x else ⟨x.store.insert e, x.index.add e.tidied⟩

/-! ### Queries -/

/-- Whether an edge is of one of these kinds. -/
def ofKind (kinds : UidSet) (e : Hyperedge) : Bool := e.relation.any fun r => decide (r ∈ kinds)

/-- The far ends of those among the facts that are of one of the kinds. -/
def follow (x : Indexed) (kinds : UidSet) (far : Hyperedge → List Uid) (facts : List Uid) : List Uid :=
  (facts.filterMap x.store.get?).flatMap fun e => if ofKind kinds e then far e else []

/-- One step from `s` over facts whose kind is in `kinds`. -/
def neighbours (x : Indexed) (s kinds : UidSet) (label : String) (d : Direction) : UidSet :=
  let forward := x.follow kinds Hyperedge.targets (s.toList.flatMap x.index.outgoing)
  let inverse := x.follow kinds Hyperedge.sources (s.toList.flatMap x.index.incoming)
  x.store.filterByLabel (.ofList (match d with
    | .forward => forward
    | .inverse => inverse
    | .both => forward ++ inverse)) label

/-- The facts that may have a source among `sources` and a target among `targets`, where these are given;
all facts if nothing is given. -/
def candidates (x : Indexed) (sources targets : Option UidSet) : UidSet :=
  let listed := fun (lists : Uid → List Uid) (s : UidSet) => UidSet.ofList (s.toList.flatMap lists)
  match sources, targets with
  | none, none => .ofList ((x.store.edges.filter (·.kind == .fact)).map (·.uid))
  | some s, none => listed x.index.outgoing s
  | none, some t => listed x.index.incoming t
  | some s, some t => listed x.index.outgoing s ∩ listed x.index.incoming t

/-- The facts whose kind is in `kinds`, restricted by a source and by a target if sets of them are
given. -/
def factsAmong (x : Indexed) (kinds : UidSet) (sources targets : Option UidSet) : UidSet :=
  (x.candidates sources targets).filter fun f => (x.store.get? f).any (ofKind kinds)

/-! ### Assertions -/

/-- Asserts a fact of a relation kind and gives its uid, or that of the fact that its key belongs to. -/
def relateFrom (x : Indexed) (relation : Uid) (sources targets : UidSet) : Option Uid × Indexed :=
  if sources.isEmpty || targets.isEmpty then (none, x)
  else match x.store.get? relation with
    | none => (none, x)
    | some r =>
      if r.kind ≠ .relation then (none, x)
      else match x.index.facts ⟨relation, sources, targets⟩ with
        | some uid => (some uid, x)
        | none =>
          let (uid, g) := x.store.nextFree relation
          (some uid, insert ⟨g, x.index⟩ (.fact uid r.label sources.toList targets.toList relation))

end Indexed

end DesignGraph
