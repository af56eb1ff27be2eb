import DesignGraph.Hyperedge

/-! # The store of hyperedges

A `Store` holds hyperedges in the order of their insertion and never forgets one: `insert` appends an edge
whose uid is not known yet and keeps the known edge otherwise, and a label is all that can change later
(`setLabel`). Both facts that everything else relies on are part of the type: no two edges share a uid,
and no edge repeats an endpoint.

Fresh uids come from `nextFree`: the base followed by the least number above the last one handed out for
that base that gives an unknown uid. The numbers handed out are remembered in the store and forgotten by
`renumbered`, which is what a copy starts from. -/

namespace DesignGraph

/-- Hyperedges in insertion order. -/
structure Store where
  edges : List Hyperedge
  /-- The last number handed out for each base. -/
  issued : Uid → Nat
  distinct : (edges.map Hyperedge.uid).Nodup
  tidy : ∀ e ∈ edges, e.Tidy

namespace Store

/-- The store without edges. -/
def empty : Store := ⟨[], fun _ => 0, List.nodup_nil, fun _ h => absurd h List.not_mem_nil⟩

/-- The same edges, with no number handed out yet. -/
def renumbered (g : Store) : Store := { g with issued := fun _ => 0 }

/-! ### Look-up -/

/-- The uids of all edges, in insertion order. -/
def uidList (g : Store) : List Uid := g.edges.map Hyperedge.uid

instance : Membership Uid Store := ⟨fun g u => u ∈ g.uidList⟩

instance (u : Uid) (g : Store) : Decidable (u ∈ g) := inferInstanceAs (Decidable (u ∈ g.uidList))

/-- The edge with this uid. -/
def get? (g : Store) (u : Uid) : Option Hyperedge := g.edges.find? (·.uid == u)

/-- The number of edges. -/
def size (g : Store) : Nat := g.edges.length

/-- The uids of all edges, as a set. -/
def uids (g : Store) : UidSet := .ofList g.uidList

/-- The label of an edge; empty for an unknown uid. -/
def labelOf (g : Store) (u : Uid) : String := ((g.get? u).map (·.label)).getD ""

/-- An empty label filter admits everything, another one exactly the label it names. -/
def labelMatches (wanted label : String) : Bool := wanted == "" || label == wanted

/-- The edges with this label and this kind, where an empty label and no kind restrict nothing. -/
def find (g : Store) (label : String) (kind : Option Kind) : UidSet :=
  .ofList ((g.edges.filter fun e =>
    labelMatches label e.label && (kind.isNone || kind == some e.kind)).map (·.uid))

/-- The known members that pass the label filter. -/
def filterByLabel (g : Store) (s : UidSet) (label : String) : UidSet :=
  s.filter fun u => (g.get? u).any fun e => labelMatches label e.label

/-- The facts that name their relation kind, in insertion order, each with that kind. -/
def facts (g : Store) : List (Uid × Hyperedge) :=
  g.edges.filterMap fun e => e.asserts?.map fun r => (r, e)

theorem mem_def {u : Uid} {g : Store} : u ∈ g ↔ ∃ e ∈ g.edges, e.uid = u := List.mem_map

theorem get?_eq_none_iff {g : Store} {u : Uid} : g.get? u = none ↔ u ∉ g := by
  simp [get?, mem_def]

theorem uid_of_get? {g : Store} {u : Uid} {e : Hyperedge} (h : g.get? u = some e) : e.uid = u := by
  simpa using List.find?_some h

/-! ### Growth -/

/-- Appends the edge if its uid is unknown, with each endpoint once. A known uid keeps its edge. -/
def insert (g : Store) (e : Hyperedge) : Store :=
  if h : e.uid ∈ g then g
  else
    { g with
      edges := g.edges ++ [e.tidied]
      distinct := by
        rw [List.map_append, List.nodup_append]
        refine ⟨g.distinct, List.pairwise_singleton _ _, ?_⟩
        intro u hu v hv huv
        rw [List.mem_singleton.1 hv] at huv
        exact h (huv ▸ hu)
      tidy := by
        intro e' he'
        rcases List.mem_append.1 he' with he' | he'
        · exact g.tidy e' he'
        · rw [List.mem_singleton.1 he']
          exact e.tidy_tidied }

/-- Another label for an edge. -/
def relabel (u : Uid) (label : String) (e : Hyperedge) : Hyperedge :=
  if e.uid = u then { e with label } else e

theorem uid_relabel (u : Uid) (label : String) (e : Hyperedge) : (relabel u label e).uid = e.uid := by
  unfold relabel
  split <;> rfl

theorem tidy_relabel {u : Uid} {label : String} {e : Hyperedge} (h : e.Tidy) :
    (relabel u label e).Tidy := by
  unfold relabel
  split <;> exact h

/-- Replaces the label of the edge with this uid, if there is one. -/
def setLabel (g : Store) (u : Uid) (label : String) : Store :=
  { g with
    edges := g.edges.map (relabel u label)
    distinct := by
      have : Hyperedge.uid ∘ relabel u label = Hyperedge.uid := funext (uid_relabel u label)
      rw [List.map_map, this]
      exact g.distinct
    tidy := by
      intro e he
      obtain ⟨e', he', rfl⟩ := List.mem_map.1 he
      exact tidy_relabel (g.tidy e' he') }

/-- Makes a concept under a uid that is not empty; a known uid keeps its edge. -/
def create (g : Store) (u : Uid) (label : String) : Option Uid × Store :=
  if u = "" then (none, g) else (some u, g.insert (.concept u label))

/-- A store with these edges, the first one of each uid. -/
def ofEdges (edges : List Hyperedge) : Store := edges.foldl insert empty

theorem edges_insert_of_mem {g : Store} {e : Hyperedge} (h : e.uid ∈ g) : g.insert e = g :=
  dif_pos h

theorem edges_insert_of_not_mem {g : Store} {e : Hyperedge} (h : e.uid ∉ g) :
    (g.insert e).edges = g.edges ++ [e.tidied] := by
  rw [insert, dif_neg h]

/-! ### Fresh uids -/

/-- The `n`-th uid derived from a base. -/
def numbered (base : Uid) (n : Nat) : Uid := base ++ toString n

/-- The least number from `n` on whose uid is not among those taken. A uid that turns out to be taken
need not be looked at again, so the list of those left gets shorter. -/
def firstUnused (base : Uid) (taken : List Uid) (n : Nat) : Nat :=
  if h : numbered base n ∈ taken then
    have : (taken.erase (numbered base n)).length < taken.length := by
      have := List.length_erase_of_mem h
      have := List.length_pos_of_mem h
      omega
    firstUnused base (taken.erase (numbered base n)) (n + 1)
  else n
termination_by taken.length

/-- An unknown uid derived from the base, and the store that remembers its number. -/
def nextFree (g : Store) (base : Uid) : Uid × Store :=
  let n := firstUnused base g.uidList (g.issued base + 1)
  (numbered base n, { g with issued := fun b => if b = base then n else g.issued b })

end Store

end DesignGraph
