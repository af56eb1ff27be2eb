import DesignGraph.Proofs.Entity.Plan
import DesignGraph.Proofs.Model.Regular

/-! # The order of a run

The algorithms of a plan come in the order in which they are generated. Each target is served by a sorted
list of what it reaches, and the lists of all targets are merged by first occurrence, without what is
excluded. Since each of them holds with a uid all that this reaches, the merged list is sorted again: a uid
stands behind all those of its successors that are planned, whichever target they were planned for. Unless
the settings are recursive, a target stands for itself, and what is left of the targets keeps their order.
What is excluded is left out of the targets too, which only shows for targets that no selection gives.

* `Store.order_plan`: which algorithms are planned, and in which order.
* `Store.not_plans_root`: the root of the algorithms is not planned although it reaches no cycle. -/

namespace DesignGraph

namespace Entity.Plan

/-- Targets that stand for themselves are planned in their order. -/
theorem sublist_foldl_addTarget {s : Settings} (hr : s.recursive = false) (composition : Digraph)
    (excluded : UidSet) (l : List Uid) : ∀ (p : Plan) (before : List Uid), p.order.Sublist before →
      (l.foldl (Plan.addTarget s composition excluded) p).order.Sublist (before ++ l) := by
  induction l with
  | nil => exact fun p before hp => by rwa [List.append_nil]
  | cons target l ih =>
    intro p before hp
    have hstep : (p.addTarget s composition excluded target).order.Sublist (before ++ [target]) := by
      have hkeep : p.order.Sublist (before ++ [target]) :=
        hp.trans (List.sublist_append_left before [target])
      unfold Plan.addTarget
      split
      · exact hkeep
      · rw [hr, order_add]
        simp only [Bool.false_eq_true, if_false, List.foldl_cons, List.foldl_nil, extend]
        split
        · exact hkeep
        · exact hp.append (List.Sublist.refl [target])
    have hrest := ih _ _ hstep
    rwa [List.append_assoc, List.singleton_append] at hrest

end Entity.Plan

namespace Store

open Entity

variable {g : Store} {s : Settings} {targets : UidSet}

/-- A plan that is not recursive lists its targets in ascending order. -/
theorem pairwise_plan (hr : s.recursive = false) : (g.plan s targets).order.Pairwise (· < ·) := by
  have hsub := Plan.sublist_foldl_addTarget hr g.composition g.notGenerated targets.toList ⟨[], []⟩ []
    (List.Sublist.refl [])
  exact targets.ascending.sublist hsub

/-- Without recursive settings the targets that reach no cycle are planned, apart from what is excluded. -/
theorem mem_plan_iff (hr : s.recursive = false) (u : Uid) :
    u ∈ (g.plan s targets).order ↔ (u ∈ targets ∧ ¬ g.composition.Cyclic u) ∧ u ∉ g.notGenerated := by
  rw [(serves_plan g s targets).mem_iff u, and_comm]
  simp only [hr, Bool.false_eq_true, if_false]
  refine and_congr_left fun _ => ⟨?_, fun ⟨hu, hc⟩ => ⟨u, hu, hc, rfl⟩⟩
  rintro ⟨target, ht, hc, rfl⟩
  exact ⟨ht, hc⟩

/-- **The order of a plan**, for any targets. With recursive settings it has, each once, what can be reached
from the targets that reach no cycle, the root of the algorithms and the implementation classes left out,
and each uid stands behind those of its sub-algorithms that are in the list. Otherwise it is the ascending
list of the targets that reach no cycle, with the same ones left out. -/
theorem order_plan (g : Store) (s : Settings) (targets : UidSet) :
    let order := (g.plan s targets).order
    if s.recursive then
      order.Nodup ∧
      (∀ u, u ∈ order ↔ (∃ target ∈ targets, ¬ g.composition.Cyclic target ∧
        g.composition.Reaches target u) ∧ u ∉ g.notGenerated) ∧
      ∀ before u after, order = before ++ u :: after →
        ∀ v ∈ g.subAlgorithms u, v ∈ order → v ∈ before
    else
      order.Pairwise (· < ·) ∧
      ∀ u, u ∈ order ↔ (u ∈ targets ∧ ¬ g.composition.Cyclic u) ∧ u ∉ g.notGenerated := by
  intro order
  have hserves := serves_plan g s targets
  by_cases hr : s.recursive
  · rw [if_pos hr]
    refine ⟨hserves.distinct, fun u => ?_, fun before u after hsplit v hv hmem => ?_⟩
    · rw [hserves.mem_iff u, and_comm]
      simp only [if_pos hr]
      rfl
    · have hx : v ∉ g.notGenerated := ((hserves.mem_iff v).1 hmem).1
      exact hserves.sorted hr before u after hsplit v
        (Digraph.step_without.2 ⟨step_composition.2 hv, hx⟩)
  · rw [if_neg hr]
    have hplain : s.recursive = false := Bool.eq_false_iff.2 hr
    exact ⟨pairwise_plan hplain, mem_plan_iff hplain⟩

/-- **The root stays out**: not all targets that reach no cycle are planned. -/
theorem not_plans_root : ¬ ∀ (g₀ : Store) (s : Settings) (targets : UidSet),
    let g := (Ontology.ofStore .algorithms g₀).store
    s.recursive = false → ∀ u, u ∈ (g.plan s targets).order ↔ u ∈ targets ∧ ¬ g.composition.Cyclic u := by
  intro h
  let g : Store := (Ontology.ofStore .algorithms .empty).store
  have hnone : (g.subAlgorithms ClassRoot.algorithm.uid).toList = [] ∧
      ClassRoot.algorithm.uid ∈ g.notGenerated := by decide +kernel
  obtain ⟨hparts, hexcluded⟩ := hnone
  have hsorted : g.composition.Sorted [ClassRoot.algorithm.uid] :=
    Digraph.sorted_nil.concat fun v hv => by
      rw [step_composition, ← UidSet.mem_toList, hparts] at hv
      exact hv
  have hplanned := (h .empty .default (.single ClassRoot.algorithm.uid) rfl ClassRoot.algorithm.uid).2
    ⟨UidSet.mem_single.2 rfl, hsorted.not_cyclic List.mem_cons_self⟩
  exact ((mem_plan_iff rfl _).1 hplanned).2 hexcluded

/-! ### Parts below an implementation class -/

open Hyperedge in
/-- `Top` and `Other` have the same part. It realizes an implementation class of `Sub`, which has a part of
its own, and `Loop` is a part of itself. -/
def sharedPart : Store where
  edges := vocabularyEdges ++ [
    concept "Top" "Top",
    fact (numbered Vocabulary.isA 6) "IS-A" ["Top"] [Vocabulary.algorithm] Vocabulary.isA,
    concept "Other" "Other",
    fact (numbered Vocabulary.isA 7) "IS-A" ["Other"] [Vocabulary.algorithm] Vocabulary.isA,
    concept "Sub" "Sub",
    fact (numbered Vocabulary.isA 8) "IS-A" ["Sub"] [Vocabulary.algorithm] Vocabulary.isA,
    concept "Sub.vhd" "entity Sub is end Sub;",
    fact (numbered Vocabulary.isA 9) "IS-A" ["Sub.vhd"] [Vocabulary.implementation] Vocabulary.isA,
    fact (numbered Vocabulary.isA 10) "IS-A" ["Sub.vhd"] ["Sub"] Vocabulary.isA,
    concept "Leaf" "Leaf",
    fact (numbered Vocabulary.isA 11) "IS-A" ["Leaf"] [Vocabulary.algorithm] Vocabulary.isA,
    concept "Loop" "Loop",
    fact (numbered Vocabulary.isA 12) "IS-A" ["Loop"] [Vocabulary.algorithm] Vocabulary.isA,
    concept "Sub1" "sub",
    fact (numbered Vocabulary.instanceOf 1) "INSTANCE-OF" ["Sub1"] ["Sub", "Sub.vhd"]
      Vocabulary.instanceOf,
    concept "Leaf1" "leaf",
    fact (numbered Vocabulary.instanceOf 2) "INSTANCE-OF" ["Leaf1"] ["Leaf"] Vocabulary.instanceOf,
    concept "Loop1" "loop",
    fact (numbered Vocabulary.instanceOf 3) "INSTANCE-OF" ["Loop1"] ["Loop"] Vocabulary.instanceOf,
    fact (numbered Vocabulary.partOfNetwork 1) "PART-OF" ["Sub1"] ["Top"] Vocabulary.partOfNetwork,
    fact (numbered Vocabulary.partOfNetwork 2) "PART-OF" ["Sub1"] ["Other"] Vocabulary.partOfNetwork,
    fact (numbered Vocabulary.partOfNetwork 3) "PART-OF" ["Leaf1"] ["Sub.vhd"] Vocabulary.partOfNetwork,
    fact (numbered Vocabulary.partOfNetwork 4) "PART-OF" ["Loop1"] ["Loop"] Vocabulary.partOfNetwork]
  issued _ := 0
  distinct := by decide +kernel
  tidy := by decide +kernel

theorem sorted_sharedPart : sharedPart.composition.Sorted ["Leaf", "Sub", "Sub.vhd", "Top", "Other"] := by
  have hparts : (∀ v ∈ (sharedPart.subAlgorithms "Leaf").toList, v ∈ ([] : List Uid)) ∧
      (∀ v ∈ (sharedPart.subAlgorithms "Sub").toList, v ∈ ["Leaf"]) ∧
      (∀ v ∈ (sharedPart.subAlgorithms "Sub.vhd").toList, v ∈ ["Leaf", "Sub"]) ∧
      (∀ v ∈ (sharedPart.subAlgorithms "Top").toList, v ∈ ["Leaf", "Sub", "Sub.vhd"]) ∧
      ∀ v ∈ (sharedPart.subAlgorithms "Other").toList, v ∈ ["Leaf", "Sub", "Sub.vhd", "Top"] := by
    decide +kernel
  simp only [UidSet.mem_toList, ← step_composition] at hparts
  obtain ⟨hleaf, hsub, hvhd, htop, hother⟩ := hparts
  have hnil : sharedPart.composition.Sorted [] := Digraph.sorted_nil
  exact ((((hnil.concat hleaf).concat hsub).concat hvhd).concat htop).concat hother

/-- The leaf below the implementation class is planned, and the targets without a cycle are. -/
theorem order_plan_sharedPart :
    let targets := UidSet.ofList ["Loop", "Other", "Top", "Sub.vhd"]
    let recursive := (sharedPart.plan { Settings.default with recursive := true } targets).order
    let plain := (sharedPart.plan .default targets).order
    "Leaf" ∈ recursive ∧ "Sub.vhd" ∉ recursive ∧
      (∀ before u after, recursive = before ++ u :: after →
        ∀ v ∈ sharedPart.subAlgorithms u, v ∈ recursive → v ∈ before) ∧
      (∀ u, u ∈ plain ↔ (u ∈ targets ∧ ¬ sharedPart.composition.Cyclic u) ∧ u ∉ sharedPart.notGenerated) ∧
      "Top" ∈ plain ∧ "Sub.vhd" ∉ plain := by
  intro targets recursive plain
  have hparts : "Sub.vhd" ∈ sharedPart.subAlgorithms "Top" ∧ "Leaf" ∈ sharedPart.subAlgorithms "Sub.vhd" ∧
      "Top" ∉ sharedPart.notGenerated ∧ "Leaf" ∉ sharedPart.notGenerated ∧
      "Sub.vhd" ∈ sharedPart.notGenerated := by decide +kernel
  obtain ⟨hvhd, hleaf, hselected, hplanned, hexcluded⟩ := hparts
  have htop : ¬ sharedPart.composition.Cyclic "Top" := sorted_sharedPart.not_cyclic (by decide)
  have hreach : sharedPart.composition.Reaches "Top" "Leaf" :=
    Relation.ReflTransGen.refl.tail (step_composition.2 hvhd) |>.tail (step_composition.2 hleaf)
  obtain ⟨-, hmem, hsorted⟩ := order_plan sharedPart { Settings.default with recursive := true } targets
  obtain ⟨-, hplain⟩ := order_plan sharedPart .default targets
  exact ⟨(hmem "Leaf").2 ⟨⟨"Top", by decide, htop, hreach⟩, hplanned⟩,
    fun h => ((hmem "Sub.vhd").1 h).2 hexcluded, hsorted, hplain,
    (hplain "Top").2 ⟨⟨by decide, htop⟩, hselected⟩, fun h => ((hplain "Sub.vhd").1 h).2 hexcluded⟩

end Store

end DesignGraph
