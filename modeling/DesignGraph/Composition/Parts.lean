import DesignGraph.ClassRoot
import DesignGraph.Composition.Digraph

/-! # Composition of algorithms

An algorithm class is composite when component instances are parts of it. Each part realizes algorithm
classes, which may be composite themselves; `subAlgorithms` are the classes that the parts of a class
realize. The relation is a finite directed graph (`composition`): its order lists the classes below a
class, parts first, and a class that is a part of itself, directly or not, shows as a cycle. -/

namespace DesignGraph.Store

theorem mem_of_mem_filterByLabel {g : Store} {s : UidSet} {label : String} {u : Uid}
    (h : u ∈ g.filterByLabel s label) : u ∈ g := by
  have h := (UidSet.mem_filter.1 h).2
  refine Decidable.byContradiction fun hu => ?_
  rw [get?_eq_none_iff.2 hu] at h
  exact Bool.false_ne_true h

/-- The part instances of a class. -/
def partsOf (g : Store) (u : Uid) : UidSet := g.componentsOf (.single u) "" .forward

/-- The algorithm classes that a part realizes. -/
def partClasses (g : Store) (part : Uid) : UidSet := g.classesOf part ∩ g.allClasses .algorithm

/-- The algorithm classes that are used as parts of a class. -/
def subAlgorithms (g : Store) (u : Uid) : UidSet := (g.partsOf u).flatMap g.partClasses

theorem mem_uidList_of_mem_subAlgorithms (g : Store) (u v : Uid)
    (h : v ∈ (g.subAlgorithms u).toList) : v ∈ g.uidList := by
  obtain ⟨p, _, hv⟩ := UidSet.mem_flatMap.1 h
  exact mem_of_mem_filterByLabel (UidSet.mem_inter.1 hv).1

/-- The composition of algorithms. -/
def composition (g : Store) : Digraph :=
  ⟨g.uidList, fun u => (g.subAlgorithms u).toList, g.mem_uidList_of_mem_subAlgorithms⟩

end DesignGraph.Store
