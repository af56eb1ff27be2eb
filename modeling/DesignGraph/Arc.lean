import DesignGraph.Hyperedge

/-! # Arcs and their closure

An arc leads from every uid on its near side to every uid on its far side; a fact read in a direction is
an arc. `step` follows the arcs once, `spread` follows them until nothing new is found. An arc whose near
side has been met adds its whole far side, so it never needs to be followed again: the list of arcs that
are still idle gets shorter in every round, which is why `spread` ends on any graph, cyclic or not.

* `subset_spread`: what was met at the start is in the result.
* `far_subset_spread`: the result is closed, every arc whose near side meets it leads into it.
* `spread_subset`: the result is the least closed set. -/

namespace DesignGraph

/-- How a fact is followed: from its sources to its targets, the other way, or both ways. -/
inductive Direction where
  | forward
  | inverse
  | both
  deriving DecidableEq, Repr

/-- Leads from all of `near` to all of `far`. -/
structure Arc where
  near : List Uid
  far : List Uid
  deriving DecidableEq

namespace Arc

/-- The near side of the arc has a member in `s`. -/
def meets (s : UidSet) (a : Arc) : Bool := a.near.any fun u => decide (u ∈ s)

/-- The far sides of the arcs, added to `s`. -/
def addFar (s : UidSet) (arcs : List Arc) : UidSet := s.insertAll (arcs.flatMap Arc.far)

/-- The arcs that `s` meets. -/
def live (arcs : List Arc) (s : UidSet) : List Arc := arcs.filter (meets s)

/-- What the arcs lead to from `s` in one step. -/
def step (arcs : List Arc) (s : UidSet) : UidSet := addFar ∅ (live arcs s)

/-- The arcs that `s` does not meet. -/
def idle (arcs : List Arc) (s : UidSet) : List Arc := arcs.filter fun a => !a.meets s

theorem meets_iff {a : Arc} {s : UidSet} : a.meets s ↔ ∃ u ∈ a.near, u ∈ s := by
  simp [meets]

@[simp] theorem mem_addFar {u : Uid} {s : UidSet} {arcs : List Arc} :
    u ∈ addFar s arcs ↔ (∃ a ∈ arcs, u ∈ a.far) ∨ u ∈ s := by
  simp [addFar]

theorem mem_step {u : Uid} {arcs : List Arc} {s : UidSet} :
    u ∈ step arcs s ↔ ∃ a ∈ arcs, a.meets s ∧ u ∈ a.far := by
  simp [step, live, and_assoc]

theorem length_idle_lt {arcs : List Arc} {s : UidSet} (h : ¬ live arcs s = []) :
    (idle arcs s).length < arcs.length := by
  obtain ⟨a, ha⟩ := List.exists_mem_of_ne_nil _ h
  obtain ⟨ha, hm⟩ := List.mem_filter.1 ha
  exact List.length_filter_lt_length_iff_exists.2 ⟨a, ha, by simp [hm]⟩

/-- Everything that can be reached from `s` over the arcs, `s` included. -/
def spread (arcs : List Arc) (s : UidSet) : UidSet :=
  if h : live arcs s = [] then s
  else
    have := length_idle_lt h
    spread (idle arcs s) (addFar s (live arcs s))
termination_by arcs.length

/-! ### The least closed set -/

theorem subset_spread (arcs : List Arc) (s : UidSet) {u : Uid} (hu : u ∈ s) : u ∈ spread arcs s := by
  fun_induction spread arcs s with
  | case1 => exact hu
  | case2 arcs s _ _ ih => exact ih (mem_addFar.2 (.inr hu))

theorem far_subset_spread (arcs : List Arc) (s : UidSet) {a : Arc} (ha : a ∈ arcs)
    (hm : a.meets (spread arcs s)) {u : Uid} (hu : u ∈ a.far) : u ∈ spread arcs s := by
  fun_induction spread arcs s with
  | case1 arcs s h => exact absurd (show a ∈ live arcs s from List.mem_filter.2 ⟨ha, hm⟩) (by simp [h])
  | case2 arcs s h _ ih =>
    by_cases hs : a.meets s
    · exact subset_spread _ _ (mem_addFar.2 (.inl ⟨a, List.mem_filter.2 ⟨ha, hs⟩, hu⟩))
    · exact ih (List.mem_filter.2 ⟨ha, by simp [hs]⟩) hm

theorem spread_subset (arcs : List Arc) (s : UidSet) {P : Uid → Prop} (hs : ∀ u ∈ s, P u)
    (harcs : ∀ a ∈ arcs, (∃ v ∈ a.near, P v) → ∀ u ∈ a.far, P u) {u : Uid}
    (hu : u ∈ spread arcs s) : P u := by
  fun_induction spread arcs s with
  | case1 => exact hs u hu
  | case2 arcs s h _ ih =>
    refine ih (fun v hv => ?_) (fun a ha => harcs a (List.mem_filter.1 ha).1) hu
    rcases mem_addFar.1 hv with ⟨a, ha, hva⟩ | hv
    · obtain ⟨ha, hm⟩ := List.mem_filter.1 ha
      obtain ⟨w, hw, hws⟩ := meets_iff.1 hm
      exact harcs a ha ⟨w, hw, hs w hws⟩ v hva
    · exact hs v hv

end Arc

namespace Direction

/-- The arcs that a fact stands for when it is followed this way. -/
def arcs (e : Hyperedge) : Direction → List Arc
  | forward => [⟨e.sources, e.targets⟩]
  | inverse => [⟨e.targets, e.sources⟩]
  | both => [⟨e.sources, e.targets⟩, ⟨e.targets, e.sources⟩]

/-- The other way round. -/
def flip : Direction → Direction
  | forward => inverse
  | inverse => forward
  | both => both

end Direction

end DesignGraph
