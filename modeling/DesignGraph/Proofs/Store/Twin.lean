import DesignGraph.Proofs.Store.Numbers

/-! # The numbers handed out do not show

A fresh uid is looked for above the last number handed out for its base. In a store that grew by its own
operations all numbers up to that one are taken (`Orderly`), so the search finds what it would find from the
start on. Stores with the same edges (`Twin`) therefore behave alike: what reads the edges alone is the same
on both (`Twin.reads`), and insertions and assertions give the same and leave twins again
(`Twin.insert_nextFree`, `Twin.relateFrom`). -/

namespace DesignGraph.Store

variable {α : Type} {g h : Store} {u base : Uid} {e : Hyperedge}

/-! ### Orderly stores -/

/-- All numbers handed out are taken, and neither a uid nor the relation kind of a fact is empty. -/
structure Orderly (g : Store) : Prop where
  issued : ∀ base k, 1 ≤ k → k ≤ g.issued base → numbered base k ∈ g
  named : "" ∉ g
  stated : ∀ e ∈ g.edges, e.relation ≠ some ""

theorem orderly_empty : Orderly empty where
  issued := gapless_renumbered empty
  named h := by cases h
  stated e he := by cases he

/-- The search may as well start at the first number: both ends are the least unused number of all. -/
theorem Orderly.nextFree_eq (hg : Orderly g) (base : Uid) :
    (g.nextFree base).1 = numbered base (firstUnused base g.uidList 1) := by
  have hg : Gapless g := hg.issued
  have hanew := (gapless_renumbered g).isLeast_firstUnused base
  exact congrArg (numbered base) ((hg.isLeast_firstUnused base).unique hanew)

theorem stated_insert (hg : ∀ e ∈ g.edges, e.relation ≠ some "") (hr : e.relation ≠ some "") :
    ∀ a ∈ (g.insert e).edges, a.relation ≠ some "" := by
  intro a ha
  by_cases hmem : e.uid ∈ g
  · rw [edges_insert_of_mem hmem] at ha
    exact hg a ha
  · rw [edges_insert_of_not_mem hmem] at ha
    rcases List.mem_append.1 ha with ha | ha
    · exact hg a ha
    · rw [List.mem_singleton.1 ha]
      exact hr

theorem Orderly.insert (hg : Orderly g) (hu : e.uid ≠ "") (hr : e.relation ≠ some "") :
    Orderly (g.insert e) where
  issued := Gapless.insert hg.issued e
  named h := (mem_insert.1 h).elim hg.named fun h => hu h.symm
  stated := stated_insert hg.stated hr

/-- A number that is handed out is taken by what is inserted under it. -/
theorem Orderly.insert_nextFree (hg : Orderly g) (hu : e.uid = (g.nextFree base).1)
    (hr : e.relation ≠ some "") : Orderly ((g.nextFree base).2.insert e) where
  issued := Gapless.insert_nextFree hg.issued hu
  named h := by
    rcases mem_insert.1 h with h | h
    · exact hg.named h
    · exact nextFree_ne_empty g base (hu ▸ h).symm
  stated := stated_insert hg.stated hr

/-! ### Twins -/

/-- The two stores have the same edges, and the numbers handed out show on neither. -/
structure Twin (g h : Store) : Prop where
  edges : h.edges = g.edges
  left : Orderly g
  right : Orderly h

theorem renumbered_congr (he : h.edges = g.edges) : h.renumbered = g.renumbered := by
  obtain ⟨l, i, hd, ht⟩ := g
  obtain ⟨l', i', hd', ht'⟩ := h
  obtain rfl : l' = l := he
  rfl

/-- What reads the edges alone is the same for stores with the same edges. -/
theorem eq_of_edges (f : Store → α) (hf : ∀ g, f g = f g.renumbered) (he : h.edges = g.edges) :
    f h = f g := by
  rw [hf h, hf g, renumbered_congr he]

namespace Twin

variable (hgh : Twin g h)

theorem refl (hg : Orderly g) : Twin g g := ⟨rfl, hg, hg⟩

include hgh

theorem reads (f : Store → α) (hf : ∀ g, f g = f g.renumbered) : f h = f g :=
  eq_of_edges f hf hgh.edges

theorem mem_iff : u ∈ h ↔ u ∈ g := edges_congr_mem hgh.edges

theorem get?_eq (u : Uid) : h.get? u = g.get? u := hgh.reads (·.get? u) fun _ => rfl

theorem edges_insert : (h.insert e).edges = (g.insert e).edges := by
  by_cases hmem : e.uid ∈ g
  · rw [edges_insert_of_mem hmem, edges_insert_of_mem (hgh.mem_iff.2 hmem), hgh.edges]
  · rw [edges_insert_of_not_mem hmem, edges_insert_of_not_mem fun h => hmem (hgh.mem_iff.1 h), hgh.edges]

theorem insert (hu : e.uid ≠ "") (hr : e.relation ≠ some "") : Twin (g.insert e) (h.insert e) :=
  ⟨hgh.edges_insert, hgh.left.insert hu hr, hgh.right.insert hu hr⟩

theorem nextFree_eq (base : Uid) : (h.nextFree base).1 = (g.nextFree base).1 := by
  rw [hgh.left.nextFree_eq, hgh.right.nextFree_eq, uidList, uidList, hgh.edges]

theorem insert_nextFree (hu : e.uid = (g.nextFree base).1) (hr : e.relation ≠ some "") :
    Twin ((g.nextFree base).2.insert e) ((h.nextFree base).2.insert e) where
  edges := by
    have hnew : e.uid ∉ g := hu ▸ nextFree_not_mem g base
    have hnew' : e.uid ∉ h := fun hm => hnew (hgh.mem_iff.1 hm)
    have hg : ((g.nextFree base).2.insert e).edges = g.edges ++ [e.tidied] := edges_insert_of_not_mem hnew
    have hh : ((h.nextFree base).2.insert e).edges = h.edges ++ [e.tidied] := edges_insert_of_not_mem hnew'
    rw [hg, hh, hgh.edges]
  left := hgh.left.insert_nextFree hu hr
  right := hgh.right.insert_nextFree (hu.trans (hgh.nextFree_eq base).symm) hr

end Twin

/-- Two results with the stores they leave: the results are equal, the stores twins. -/
def Alike (p q : α × Store) : Prop := q.1 = p.1 ∧ Twin p.2 q.2

theorem Alike.exists_eq {p q : α × Store} (hpq : Alike p q) :
    ∃ a g h, p = (a, g) ∧ q = (a, h) ∧ Twin g h := by
  obtain ⟨a, g⟩ := p
  obtain ⟨b, h⟩ := q
  obtain ⟨hab, hgh⟩ := hpq
  exact ⟨a, g, h, rfl, congrArg (·, h) hab, hgh⟩

namespace Twin

variable (hgh : Twin g h)

include hgh

theorem create (u : Uid) (label : String) : Alike (g.create u label) (h.create u label) := by
  unfold Store.create
  split
  · exact ⟨rfl, hgh⟩
  · rename_i hu
    exact ⟨rfl, hgh.insert hu (by simp [Hyperedge.concept])⟩

theorem relateFrom (r : Uid) (S T : UidSet) : Alike (g.relateFrom r S T) (h.relateFrom r S T) := by
  have hfind : h.findFact? r S T = g.findFact? r S T := hgh.reads (·.findFact? r S T) fun _ => rfl
  unfold Store.relateFrom
  rw [hgh.get?_eq, hfind]
  split
  · exact ⟨rfl, hgh⟩
  cases hk : g.get? r with
  | none => exact ⟨rfl, hgh⟩
  | some k =>
    simp only
    split
    · exact ⟨rfl, hgh⟩
    cases g.findFact? r S T with
    | some u => exact ⟨rfl, hgh⟩
    | none =>
      -- the relation kind is known, so its uid is not empty
      have hne : k.uid ≠ "" := fun he => hgh.left.named (mem_def.2 ⟨k, mem_of_get? hk, he⟩)
      have hr : (Hyperedge.fact (g.nextFree k.uid).1 k.label S.toList T.toList k.uid).relation ≠ some "" := by
        simpa [Hyperedge.fact] using hne
      refine ⟨congrArg some (hgh.nextFree_eq k.uid), ?_⟩
      have hins := hgh.insert_nextFree rfl hr
      rw [appendFact, appendFact]
      simp only [hgh.nextFree_eq]
      exact hins

end Twin

end DesignGraph.Store
