import DesignGraph.Network.Factory
import DesignGraph.Relation.Memory
import DesignGraph.Vocabulary.Level

/-! # Graphs in use

An `Ontology` is a store opened at a level of vocabulary, together with what queries remember and the
rejections recorded so far. The queries that name their relation kinds go through the memory; all others
read the store alone. -/

namespace DesignGraph

/-- A graph in use. -/
structure Ontology where
  level : Level
  store : Store
  memory : Memory
  rejections : List Rejection

namespace Ontology

/-- Opens the edges of a store at a level. -/
def ofStore (level : Level) (g : Store) : Ontology := ⟨level, level.copy g, .empty, []⟩

/-- Declares the vocabulary of the level again. -/
def bootstrap (o : Ontology) : Ontology := { o with store := o.level.bootstrap o.store }

/-- Takes over the store and the rejections of an outcome. -/
def record (o : Ontology) (outcome : Outcome) : Option Uid × Ontology :=
  (outcome.result,
    { o with store := outcome.store, rejections := o.rejections ++ outcome.rejected })

/-- Forgets the rejections. -/
def clearRejections (o : Ontology) : Ontology := { o with rejections := [] }

/-! ### Queries that name their relation kinds -/

/-- The kinds below the given ones, as remembered. -/
def subrelations (o : Ontology) (kinds : UidSet) : UidSet × Ontology :=
  let (answer, memory) := o.store.answerFrom o.memory kinds
  (answer, { o with memory })

/-- The facts of these kinds, restricted by sources and by targets if they are given. -/
def factsOf (o : Ontology) (kinds : UidSet) (sources targets : Option UidSet) : UidSet × Ontology :=
  let (kinds, o) := o.subrelations kinds
  (o.store.factsAmong kinds sources targets, o)

/-- The known uids one step from `s` over facts of these kinds. -/
def related (o : Ontology) (s kinds : UidSet) (label : String) (d : Direction) : UidSet × Ontology :=
  let (kinds, o) := o.subrelations kinds
  (o.store.neighbours s kinds label d, o)

/-! ### Classes at a level -/

/-- The root below which a class of interfaces is made at this level. -/
def interfaceRoot (o : Ontology) : ClassRoot :=
  if o.level = .algorithms then .softwareInterface else .interface

/-- The roots whose lattices are counted at this level. -/
def countedRoots (o : Ontology) : List ClassRoot :=
  if o.level = .algorithms then
    [.component, .interface, .network, .algorithm, .input, .output, .implementation, .datatype]
  else [.component, .interface, .network]

/-! ### Statistics -/

/-- Counts over a graph. -/
structure Statistics where
  concepts : Nat
  relations : Nat
  facts : Nat
  /-- For each root, the number of classes below it. -/
  classes : List (String × Int)
  /-- For each root, the number of instances of its classes. -/
  instances : List (String × Nat)

/-- The number of edges of a kind. -/
def countKind (o : Ontology) (kind : Kind) : Nat := o.store.edges.countP (·.kind == kind)

/-- The name of a counted root with a count. -/
def countFor {α : Type} (count : ClassRoot → α) (root : ClassRoot) : Option (String × α) :=
  root.counted.map fun name => (name, count root)

/-- The counts of a graph. A root does not count as a class below itself. -/
def statistics (o : Ontology) : Statistics where
  concepts := o.countKind .concept
  relations := o.countKind .relation
  facts := o.countKind .fact
  classes := o.countedRoots.filterMap (countFor fun root => (o.store.allClasses root).size - 1)
  instances := o.countedRoots.filterMap (countFor fun root => (o.store.allMembers root).size)

/-! ### Display -/

/-- The name under which a graph of this level is shown. -/
def levelName (o : Ontology) : String :=
  match o.level with
  | .plain => "Hypergraph"
  | .concepts => "ConceptGraph"
  | .components => "ComponentNetwork"
  | .algorithms => "SoftwareGraph"

/-- A graph shown in one line: its size, and from the level of components on the rejections. -/
def display (o : Ontology) : String :=
  let size := o.levelName ++ "(hyperedges=" ++ toString o.store.size
  match o.level with
  | .plain | .concepts => size ++ ")"
  | .components | .algorithms => size ++ ", rejections=" ++ toString o.rejections.length ++ ")"

end Ontology

/-- An edge shown in one line: a concept with its label, anything else with its endpoints in order. -/
def Hyperedge.display (e : Hyperedge) : String :=
  match e.kind with
  | .concept => e.uid ++ "[" ++ e.label ++ "]"
  | _ => Text.quotedList (UidSet.ofList e.sources).toList ++ " --" ++ e.label ++ "--> " ++
      Text.quotedList (UidSet.ofList e.targets).toList

end DesignGraph
