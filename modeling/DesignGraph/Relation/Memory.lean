import DesignGraph.Relation.Query

/-! # Remembered hierarchies of relation kinds

A query that names its relation kinds itself asks for the kinds below them and remembers the answer for
that very set of kinds. What is remembered holds until another fact about the hierarchy is stored: the
memory carries the number of such facts it was taken at, and is empty for any other number (`Memory.at`).
Which kinds were known when the answer was taken is not part of that, so a kind that was asked about
before it was declared keeps its old answer. -/

namespace DesignGraph

/-- The answers remembered, and the number of facts about the hierarchy they were taken at. -/
structure Memory where
  stamp : Nat
  answers : List (UidSet × UidSet)

namespace Memory

/-- Nothing remembered. -/
def empty : Memory := ⟨0, []⟩

end Memory

namespace Store

/-- The facts that place a relation kind below another one. -/
def hierarchyFacts (g : Store) : List (Uid × Hyperedge) :=
  g.facts.filter fun f => f.1 == Vocabulary.subrelationOf

/-- What of the memory still holds for the store. -/
def remembered (g : Store) (m : Memory) : Memory :=
  if m.stamp = g.hierarchyFacts.length then m else ⟨g.hierarchyFacts.length, []⟩

/-- The kinds below `kinds` as remembered, or as they are now if nothing is remembered of this set. -/
def answerFrom (g : Store) (m : Memory) (kinds : UidSet) : UidSet × Memory :=
  let m := g.remembered m
  match m.answers.lookup kinds with
  | some answer => (answer, m)
  | none =>
    let answer := g.subrelations kinds
    (answer, { m with answers := (kinds, answer) :: m.answers })

end Store

end DesignGraph
