import DesignGraph.Relation.Index

/-! # The closure, one uid after the other

An `Indexed` store finds the closure of some roots over facts of one kind without looking at all edges. A
`Frontier` holds what has been met, and of that, in a queue, what has not been followed yet. A round
(`advance`) takes the uid at the head of the queue and meets everything that the facts listed at it lead to;
what is met for the first time joins the queue. The rounds start at the known roots, in any order, and are
over once the queue is empty. -/

namespace DesignGraph

/-- What has been met, and what of it still has to be followed, the earliest first. -/
structure Frontier where
  met : UidSet
  waiting : List Uid

namespace Frontier

/-- Meets a uid. Only one that has not been met before joins the queue. -/
def meet (s : Frontier) (u : Uid) : Frontier :=
  if u ∈ s.met then s else ⟨s.met.insert u, s.waiting ++ [u]⟩

end Frontier

namespace Indexed

/-- What the facts of a kind that are listed at a uid lead to. -/
def stepsFrom (x : Indexed) (relation : Uid) (d : Direction) (u : Uid) : List Uid :=
  let forward := x.follow (.single relation) Hyperedge.targets (x.index.outgoing u)
  let inverse := x.follow (.single relation) Hyperedge.sources (x.index.incoming u)
  match d with
  | .forward => forward
  | .inverse => inverse
  | .both => forward ++ inverse

/-- The known ones among the roots have been met, and wait in the given order. -/
def departure (x : Indexed) (roots : UidSet) (order : List Uid) : Frontier := ⟨x.store.known roots, order⟩

/-- One round. If nothing waits there is nothing left to do. -/
def advance (x : Indexed) (relation : Uid) (d : Direction) (s : Frontier) : Frontier :=
  match s.waiting with
  | [] => s
  | u :: rest => (x.stepsFrom relation d u).foldl Frontier.meet { s with waiting := rest }

end Indexed

end DesignGraph
