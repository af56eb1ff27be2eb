import DesignGraph.Relation.Query

/-! # Declaring relation kinds and asserting facts

`relate` declares a relation kind, `relateFrom` asserts a fact of one. Facts have the semantics of sets:
the endpoints are stored in ascending order without repetitions, and a fact with the same kind, the same
sources and the same targets as a stored one is that fact. An assertion without sources or without
targets, or of something that is no relation kind, changes nothing. -/

namespace DesignGraph.Store

/-- Declares a relation kind under a uid that is not empty; a known uid keeps its edge. -/
def relate (g : Store) (uid : Uid) (sources targets : List Uid) (label : String) :
    Option Uid × Store :=
  if uid = "" then (none, g)
  else (some uid, g.insert
    ⟨uid, label, .relation, (UidSet.ofList sources).toList, (UidSet.ofList targets).toList, none⟩)

/-- Whether an edge has exactly these sources and targets. -/
def joins (sources targets : UidSet) (e : Hyperedge) : Bool :=
  UidSet.ofList e.sources = sources && UidSet.ofList e.targets = targets

/-- The earliest fact of a relation kind with exactly these endpoints. -/
def findFact? (g : Store) (relation : Uid) (sources targets : UidSet) : Option Uid :=
  (g.facts.find? fun f => f.1 == relation && joins sources targets f.2).map (·.2.uid)

/-- Stores a new fact under a fresh uid derived from its relation kind. -/
def appendFact (g : Store) (relation : Hyperedge) (sources targets : UidSet) : Uid × Store :=
  let (uid, g) := g.nextFree relation.uid
  (uid, g.insert (.fact uid relation.label sources.toList targets.toList relation.uid))

/-- Asserts a fact of a relation kind and gives its uid, or that of the fact that was stored already. -/
def relateFrom (g : Store) (relation : Uid) (sources targets : UidSet) : Option Uid × Store :=
  if sources.isEmpty || targets.isEmpty then (none, g)
  else match g.get? relation with
    | none => (none, g)
    | some r =>
      if r.kind ≠ .relation then (none, g)
      else match g.findFact? relation sources targets with
        | some uid => (some uid, g)
        | none =>
          let (uid, g) := g.appendFact r sources targets
          (some uid, g)

/-- Places relation kinds below others. -/
def subrelationOf (g : Store) (kinds parents : UidSet) : Option Uid × Store :=
  g.relateFrom Vocabulary.subrelationOf kinds parents

/-- Makes classes subclasses of others. -/
def isA (g : Store) (classes superclasses : UidSet) : Option Uid × Store :=
  g.relateFrom Vocabulary.isA classes superclasses

/-- Makes instances realize classes. -/
def instanceOf (g : Store) (instances classes : UidSet) : Option Uid × Store :=
  g.relateFrom Vocabulary.instanceOf instances classes

end DesignGraph.Store
