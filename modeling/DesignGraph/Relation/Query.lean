import DesignGraph.Arc
import DesignGraph.Store
import DesignGraph.Vocabulary

/-! # Queries over facts

Facts are followed as arcs. A query over relation kinds honours the hierarchy of kinds: `subrelations`
adds to the known ones among the kinds asked for everything that is declared below them. One-step
neighbours (`related`) respect that hierarchy; the class lattice (`subclasses`) is the closure over facts
of the kind `Vocabulary.isA` itself. All results are sets of known uids that pass a label filter. -/

namespace DesignGraph.Store

/-- The facts whose relation kind is admitted, as arcs. -/
def arcs (g : Store) (admits : Uid → Bool) (d : Direction) : List Arc :=
  g.facts.flatMap fun f => if admits f.1 then d.arcs f.2 else []

/-- The known members of a set. -/
def known (g : Store) (s : UidSet) : UidSet := s.filter fun u => decide (u ∈ g)

/-- The known members of `s` and all that facts of exactly one relation kind lead to from them. -/
def closure (g : Store) (relation : Uid) (d : Direction) (s : UidSet) : UidSet :=
  Arc.spread (g.arcs (· == relation) d) (g.known s)

/-! ### Relation kinds -/

/-- The known ones among these relation kinds and all kinds below them. -/
def subrelations (g : Store) (kinds : UidSet) : UidSet :=
  g.closure Vocabulary.subrelationOf .inverse kinds

/-- One step from `s` over facts whose kind is in `kinds`. -/
def neighbours (g : Store) (s kinds : UidSet) (label : String) (d : Direction) : UidSet :=
  g.filterByLabel (Arc.step (g.arcs (fun r => decide (r ∈ kinds)) d) s) label

/-- One step from `s` over facts of a relation kind or of any kind below it. -/
def related (g : Store) (relation : Uid) (s : UidSet) (label : String) (d : Direction) : UidSet :=
  g.neighbours s (g.subrelations (.single relation)) label d

/-- Whether a list has a member in a set, where no set asks for nothing. -/
def meetsSome (l : List Uid) : Option UidSet → Bool
  | none => true
  | some s => l.any fun u => decide (u ∈ s)

/-- The facts whose kind is in `kinds`, restricted by a source and by a target if sets of them are given.
Without any restriction a fact counts even if it names its relation kind by the empty uid. -/
def factsAmong (g : Store) (kinds : UidSet) (sources targets : Option UidSet) : UidSet :=
  if sources.isNone && targets.isNone then
    .ofList ((g.edges.filter fun e =>
      e.kind == .fact && e.relation.any fun r => decide (r ∈ kinds)).map (·.uid))
  else
    .ofList ((g.facts.filter fun f =>
      decide (f.1 ∈ kinds) && meetsSome f.2.sources sources && meetsSome f.2.targets targets).map
        (·.2.uid))

/-! ### Classes and instances -/

/-- The classes `s` with all their subclasses; forward, with all their superclasses. -/
def subclasses (g : Store) (s : UidSet) (label : String) (d : Direction) : UidSet :=
  g.filterByLabel (g.closure Vocabulary.isA d s) label

/-- The classes directly below `s`; forward, directly above. -/
def directSubclasses (g : Store) (s : UidSet) (label : String) (d : Direction) : UidSet :=
  g.related Vocabulary.isA s label d

/-- The direct instances of the classes `s`; forward, the classes of the instances `s`. -/
def instances (g : Store) (s : UidSet) (label : String) (d : Direction) : UidSet :=
  g.related Vocabulary.instanceOf s label d

/-- The classes that an instance is a direct instance of. -/
def classesOf (g : Store) (u : Uid) : UidSet := g.instances (.single u) "" .forward

/-! ### Structure -/

/-- What `s` owns or contains; inversely, what owns or contains `s`. -/
def children (g : Store) (s : UidSet) (label : String) (d : Direction) : UidSet :=
  g.related Vocabulary.hasA s label d ∪ g.related Vocabulary.partOf s label d.flip

/-- What is connected to `s`. -/
def endpoints (g : Store) (s : UidSet) (label : String) (d : Direction) : UidSet :=
  g.related Vocabulary.connects s label d

end DesignGraph.Store
