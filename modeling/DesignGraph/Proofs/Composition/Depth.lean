import DesignGraph.Proofs.Composition.Order
import Mathlib.Order.Bounds.Basic

/-! # The depth of a composition

The depth of a uid is the length of the longest chain of successors that starts at it. It is read off a table
that is filled along the order: what is entered for a uid is computed from the entries of its successors. As
these stand in front of it, each of them is there already, and each is the depth of its successor
(`IsFilled`, `isFilled_heights`). So the depth exists just if there is an order, which is if no cycle can be
reached (`Store.depth_composition`). -/

namespace DesignGraph

namespace Digraph

variable {G : Digraph} {start u v : Uid} {vs l r : List Uid} {table : List (Uid × ℕ)} {m n : ℕ}

/-! ### Chains -/

/-- The lengths of the chains of successors that start at a uid. -/
def chainLengths (G : Digraph) (u : Uid) : Set ℕ := {n | ∃ c, (u :: c).IsChain G.Step ∧ c.length = n}

/-- The longest chain of successors from `u` has this length. -/
def IsHeight (G : Digraph) (u : Uid) (n : ℕ) : Prop := IsGreatest (G.chainLengths u) n

theorem zero_mem_chainLengths : 0 ∈ G.chainLengths u := ⟨[], List.isChain_singleton u, rfl⟩

/-- A chain goes to a successor and on from there. -/
theorem succ_mem_chainLengths : n + 1 ∈ G.chainLengths u ↔ ∃ v, G.Step u v ∧ n ∈ G.chainLengths v := by
  constructor
  · rintro ⟨c, hc, hlength⟩
    obtain ⟨v, c, rfl⟩ := List.exists_cons_of_length_eq_add_one hlength
    obtain ⟨huv, hc⟩ := List.isChain_cons_cons.1 hc
    exact ⟨v, huv, c, hc, by simpa using hlength⟩
  · rintro ⟨v, huv, c, hc, rfl⟩
    exact ⟨v :: c, List.isChain_cons_cons.2 ⟨huv, hc⟩, rfl⟩

/-! ### One entry of the table -/

theorem heightOver_le_iff :
    heightOver table vs ≤ m ↔ ∀ v ∈ vs, 1 + (table.lookup v).getD 0 ≤ m := by
  have hfold : ∀ (vs : List Uid) (k : ℕ),
      vs.foldl (fun n v => max n (1 + (table.lookup v).getD 0)) k ≤ m ↔
        k ≤ m ∧ ∀ v ∈ vs, 1 + (table.lookup v).getD 0 ≤ m := by
    intro vs
    induction vs with
    | nil => simp
    | cons v vs ih =>
      intro k
      rw [List.foldl_cons, ih, Nat.max_le, List.forall_mem_cons, and_assoc]
  exact (hfold vs 0).trans (and_iff_right (Nat.zero_le m))

/-- **The entry of a uid**: it is the depth, if the entries of all successors are. -/
theorem isHeight_heightOver (h : ∀ v, G.Step u v → ∃ n, table.lookup v = some n ∧ G.IsHeight v n) :
    G.IsHeight u (heightOver table (G.next u)) := by
  constructor
  · -- a positive entry comes from a successor, whose longest chain is prolonged
    cases hk : heightOver table (G.next u) with
    | zero => exact zero_mem_chainLengths
    | succ k =>
      have hnot : ¬ heightOver table (G.next u) ≤ k := by omega
      rw [heightOver_le_iff] at hnot
      push Not at hnot
      obtain ⟨v, hv, hlt⟩ := hnot
      have hle := heightOver_le_iff.1 hk.le v hv
      obtain ⟨n, hn, hheight⟩ := h v hv
      simp only [hn, Option.getD_some] at hlt hle
      obtain rfl : n = k := by omega
      exact succ_mem_chainLengths.2 ⟨v, hv, hheight.1⟩
  · intro m hm
    cases m with
    | zero => exact Nat.zero_le _
    | succ k =>
      obtain ⟨v, hv, hk⟩ := succ_mem_chainLengths.1 hm
      obtain ⟨n, hn, hheight⟩ := h v hv
      have hentry := heightOver_le_iff.1 (le_refl (heightOver table (G.next u))) v hv
      rw [hn, Option.getD_some] at hentry
      have hkn : k ≤ n := hheight.2 hk
      omega

/-! ### The table -/

/-- Every uid of the list has an entry, and it is the depth. -/
def IsFilled (G : Digraph) (table : List (Uid × ℕ)) (l : List Uid) : Prop :=
  ∀ u ∈ l, ∃ n, table.lookup u = some n ∧ G.IsHeight u n

theorem heights_concat (G : Digraph) (l : List Uid) (u : Uid) :
    G.heights (l ++ [u]) = (u, heightOver (G.heights l) (G.next u)) :: G.heights l := by
  rw [heights, List.foldl_append]
  rfl

theorem Sorted.of_append (hl : G.Sorted (l ++ r)) : G.Sorted l := by
  intro before w after h v hv
  exact hl before w (after ++ r) (by simp [h]) v hv

/-- **The step**: the entries stay, and the new one is the depth of the new uid. -/
theorem IsFilled.concat (h : G.IsFilled (G.heights l) l) (hu : ∀ v, G.Step u v → v ∈ l) :
    G.IsFilled (G.heights (l ++ [u])) (l ++ [u]) := by
  intro w hw
  rw [heights_concat, List.lookup_cons]
  by_cases hwu : w = u
  · subst hwu
    exact ⟨_, by rw [beq_self_eq_true], isHeight_heightOver fun v hv => h v (hu v hv)⟩
  · have hwl : w ∈ l := by simpa [hwu] using hw
    obtain ⟨n, hn, hheight⟩ := h w hwl
    exact ⟨n, by rw [beq_false_of_ne hwu, hn], hheight⟩

/-- **The run**: along an order, the table holds the depths of all uids that it has come past. -/
theorem isFilled_heights (hl : G.Sorted l) : G.IsFilled (G.heights l) l := by
  induction l using List.reverseRecOn with
  | nil => exact fun u hu => absurd hu List.not_mem_nil
  | append_singleton l u ih =>
    exact (ih hl.of_append).concat fun v hv => hl l u [] rfl v hv

/-! ### The depth -/

theorem depth_of_order (h : G.order start = .ok l) : ∃ n, (G.heights l).lookup start = some n ∧
    G.depth start = .ok n ∧ G.IsHeight start n := by
  have ho := isOrder_of_ok h
  obtain ⟨n, hn, hheight⟩ := isFilled_heights ho.sorted start ((ho.mem_iff start).2 .refl)
  refine ⟨n, hn, ?_, hheight⟩
  rw [depth, h, Except.map, hn, Option.getD_some]

theorem depth_eq_error_iff {c : Cycle} : G.depth start = .error c ↔ G.order start = .error c := by
  cases h : G.order start <;> simp [depth, h, Except.map]

/-- There is a depth just if no cycle can be reached, and it is the length of the longest chain. -/
theorem depth_eq_ok_iff : G.depth start = .ok n ↔ ¬ G.Cyclic start ∧ G.IsHeight start n := by
  constructor
  · intro h
    cases ho : G.order start with
    | error c =>
      rw [depth_eq_error_iff.2 ho] at h
      cases h
    | ok l =>
      obtain ⟨k, -, hk, hheight⟩ := depth_of_order ho
      obtain rfl : k = n := Except.ok.inj (hk.symm.trans h)
      exact ⟨(isOrder_of_ok ho).not_cyclic, hheight⟩
  · rintro ⟨hc, hheight⟩
    obtain ⟨l, ho, -⟩ := order_of_not_cyclic hc
    obtain ⟨k, -, hk, hheight'⟩ := depth_of_order ho
    rw [hk, hheight'.unique hheight]

end Digraph

namespace Store

/-- **The depth of an algorithm class** is the length of the longest chain of sub-algorithms from it, and
exists unless a class that is a part of itself can be reached. Wherever the table that it is read off is
asked for a class, the entry is there: for the sub-algorithms of a class, in the table of those that stand
before it in the order, and for the class itself in the end. -/
theorem depth_composition (g : Store) (a : Uid) :
    let G := g.composition
    ((∃ c, G.depth a = .error c) ↔ G.Cyclic a) ∧
    (∀ c, G.depth a = .error c → G.IsCycle a c) ∧
    (∀ n, G.depth a = .ok n ↔ ¬ G.Cyclic a ∧
      IsGreatest {n | ∃ c, (a :: c).IsChain (fun x y => y ∈ g.subAlgorithms x) ∧ c.length = n} n) ∧
    ∀ l, G.order a = .ok l →
      (∀ before u after, l = before ++ u :: after → ∀ v ∈ g.subAlgorithms u,
        ∃ k, (G.heights before).lookup v = some k ∧ G.depth v = .ok k) ∧
      ∃ n, (G.heights l).lookup a = some n ∧ G.depth a = .ok n := by
  intro G
  refine ⟨⟨?_, fun h => ?_⟩, fun c h => ?_, fun n => Digraph.depth_eq_ok_iff, fun l hl => ⟨?_, ?_⟩⟩
  · rintro ⟨c, h⟩
    exact (Digraph.isCycle_of_error (Digraph.depth_eq_error_iff.1 h)).cyclic
  · obtain ⟨c, h, -⟩ := Digraph.order_of_cyclic h
    exact ⟨c, Digraph.depth_eq_error_iff.2 h⟩
  · exact Digraph.isCycle_of_error (Digraph.depth_eq_error_iff.1 h)
  · rintro before u after rfl v hv
    have hsorted := (Digraph.isOrder_of_ok hl).sorted
    have hbefore : v ∈ before := hsorted before u after rfl v hv
    obtain ⟨k, hk, hheight⟩ := Digraph.isFilled_heights hsorted.of_append v hbefore
    exact ⟨k, hk, Digraph.depth_eq_ok_iff.2 ⟨hsorted.of_append.not_cyclic hbefore, hheight⟩⟩
  · obtain ⟨n, hn, hdepth, -⟩ := Digraph.depth_of_order hl
    exact ⟨n, hn, hdepth⟩

end Store

end DesignGraph
