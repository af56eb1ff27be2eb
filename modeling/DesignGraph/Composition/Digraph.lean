import DesignGraph.UidSet

/-! # Finite directed graphs: order and depth

A `Digraph` has finitely many vertices and gives for every uid the list of its successors, which are
vertices. `order` lists what can be reached from a start, each uid after all its successors, or gives a
cycle. It visits the successors of a uid in their order and goes into one that is neither finished nor on
the path from the start; a successor on that path closes a cycle. Each visit lengthens the path by a
vertex, so the recursion is bounded by the vertices that are not on the path. `depth` is the length of the
longest chain of successors, read off a table that is filled along the order. -/

namespace DesignGraph

/-- A directed graph with finitely many vertices. -/
structure Digraph where
  vertices : List Uid
  next : Uid → List Uid
  next_mem : ∀ u, ∀ v ∈ next u, v ∈ vertices

/-- A closed chain of successors: the first uid is also the last one. -/
abbrev Cycle := List Uid

namespace Digraph

/-- The vertices that are not on a path. -/
def offPath (G : Digraph) (path : List Uid) : List Uid := G.vertices.filter fun v => !path.contains v

theorem length_offPath_cons_lt {G : Digraph} {path : List Uid} {v : Uid} (hv : v ∈ G.vertices)
    (hp : v ∉ path) : (G.offPath (v :: path)).length < (G.offPath path).length := by
  have h : G.offPath (v :: path) = (G.offPath path).filter fun u => u != v := by
    simp only [offPath, List.filter_filter]
    refine List.filter_congr fun u _ => ?_
    by_cases hu : u = v <;> simp [hu]
  rw [h]
  exact List.length_filter_lt_length_iff_exists.2
    ⟨v, List.mem_filter.2 ⟨hv, by simp [hp]⟩, by simp⟩

/-- The cycle that a successor on the path closes: from it along the path, and back to it. The path is
given with its end first. -/
def closeCycle (path : List Uid) (v : Uid) : Cycle := (path.reverse.dropWhile (· != v)) ++ [v]

mutual

/-- Finishes the end `u` of a path: first all its successors, then `u` itself. -/
def visit (G : Digraph) (path done : List Uid) (u : Uid) : Except Cycle (List Uid) :=
  match visitAll G path done (G.next u) (G.next_mem u) with
  | .error cycle => .error cycle
  | .ok done => .ok (done ++ [u])
termination_by ((G.offPath path).length, 1, 0)

/-- Finishes successors of the end of a path, in their order. -/
def visitAll (G : Digraph) (path done : List Uid) :
    (vs : List Uid) → (∀ v ∈ vs, v ∈ G.vertices) → Except Cycle (List Uid)
  | [], _ => .ok done
  | v :: vs, h =>
    have hvs := fun w hw => h w (List.mem_cons_of_mem v hw)
    if v ∈ done then visitAll G path done vs hvs
    else if hp : v ∈ path then .error (closeCycle path v)
    else
      have := length_offPath_cons_lt (h v List.mem_cons_self) hp
      match visit G (v :: path) done v with
      | .error cycle => .error cycle
      | .ok done => visitAll G path done vs hvs
termination_by vs => ((G.offPath path).length, 0, vs.length)

end

/-- All that can be reached from a start, the start last and each uid after its successors. -/
def order (G : Digraph) (start : Uid) : Except Cycle (List Uid) := G.visit [start] [] start

/-- The depth above successors with the depths of a table. -/
def heightOver (table : List (Uid × Nat)) (vs : List Uid) : Nat :=
  vs.foldl (fun n v => max n (1 + (table.lookup v).getD 0)) 0

/-- The depth of every uid of a list, each computed from those before it; the last one is in front. -/
def heights (G : Digraph) (l : List Uid) : List (Uid × Nat) :=
  l.foldl (fun table u => (u, heightOver table (G.next u)) :: table) []

/-- The length of the longest chain of successors from a start. -/
def depth (G : Digraph) (start : Uid) : Except Cycle Nat :=
  (G.order start).map fun l => ((G.heights l).lookup start).getD 0

end Digraph

end DesignGraph
