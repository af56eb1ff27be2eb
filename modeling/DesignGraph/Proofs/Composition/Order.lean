import DesignGraph.Composition.Parts
import Mathlib.Data.List.Chain
import Mathlib.Data.List.Nodup
import Mathlib.Logic.Relation

/-! # The order of a finite directed graph

`order` sorts topologically what can be reached from its start (`IsOrder`), unless a cycle can be reached:
then it gives one (`IsCycle`). Which of the two comes out is decided by the graph alone
(`order_eq_ok`, `order_eq_error`).

The search is described by `Searching`: a path from the start, its end first, and the uids that are
finished, apart from each other. A visit of the end of the path leaves a search whose path is shorter by
that end (`finds_visit`); a successor on the path closes a cycle (`Searching.isCycle_closeCycle`). -/

namespace DesignGraph

open Relation

namespace Digraph

variable {G : Digraph} {start u v : Uid} {path rest done done' l : List Uid} {c : Cycle}

/-! ### Paths, orders and cycles -/

/-- `v` is a successor of `u`. -/
def Step (G : Digraph) (u v : Uid) : Prop := v ∈ G.next u

/-- A chain of successors leads from `u` to `v`. -/
def Reaches (G : Digraph) : Uid → Uid → Prop := ReflTransGen G.Step

/-- A chain of successors leads from the start to a uid and from there back to it. -/
def Cyclic (G : Digraph) (start : Uid) : Prop := ∃ u, G.Reaches start u ∧ TransGen G.Step u u

/-- Each uid of the list comes after all its successors. -/
def Sorted (G : Digraph) (l : List Uid) : Prop :=
  ∀ before u after, l = before ++ u :: after → ∀ v, G.Step u v → v ∈ before

/-- The list has what can be reached from the start, each uid once and after all its successors. -/
structure IsOrder (G : Digraph) (start : Uid) (l : List Uid) : Prop where
  distinct : l.Nodup
  mem_iff : ∀ u, u ∈ l ↔ G.Reaches start u
  sorted : G.Sorted l
  last : l.getLast? = some start

/-- The list is a closed chain of successors that can be reached from the start; apart from its last uid,
which is the first one, all of them are different. -/
structure IsCycle (G : Digraph) (start : Uid) (c : Cycle) : Prop where
  two_le_length : 2 ≤ c.length
  closed : c.head? = c.getLast?
  distinct : c.dropLast.Nodup
  chain : c.IsChain G.Step
  reached : ∀ u ∈ c, G.Reaches start u

theorem sorted_nil : G.Sorted [] := by
  intro before u after h
  simp at h

theorem Sorted.concat (hl : G.Sorted l) (hu : ∀ v, G.Step u v → v ∈ l) : G.Sorted (l ++ [u]) := by
  intro before w after h v hv
  rcases List.eq_nil_or_concat after with rfl | ⟨after, x, rfl⟩
  · obtain ⟨rfl, hw⟩ := List.append_inj' h rfl
    obtain rfl : u = w := by simpa using hw
    exact hu v hv
  · have h : l ++ [u] = (before ++ w :: after) ++ [x] := by simpa using h
    exact hl before w after (List.append_inj' h rfl).1 v hv

theorem Sorted.mem_of_reaches (hl : G.Sorted l) (hu : u ∈ l) (h : G.Reaches u v) : v ∈ l := by
  induction h with
  | refl => exact hu
  | @tail a b _ hab ih =>
    obtain ⟨before, after, rfl⟩ := List.append_of_mem ih
    exact List.mem_append_left _ (hl before a after rfl b hab)

/-- The graph without steps to excluded uids. -/
def without (G : Digraph) (excluded : UidSet) : Digraph :=
  ⟨G.vertices, fun u => (G.next u).filter fun v => decide (v ∉ excluded),
    fun u v hv => G.next_mem u v (List.mem_filter.1 hv).1⟩

theorem step_without {excluded : UidSet} :
    (G.without excluded).Step u v ↔ G.Step u v ∧ v ∉ excluded := by
  simp [Step, without]

/-! ### An order and a cycle exclude each other -/

/-- Successors stand further in front. -/
theorem Sorted.idxOf_lt (hl : G.Sorted l) (hu : u ∈ l) (h : G.Step u v) : l.idxOf v < l.idxOf u := by
  obtain ⟨before, after, rfl, hb⟩ := List.eq_append_cons_of_mem hu
  have hv : v ∈ before := hl before u after rfl v h
  rw [List.idxOf_append_of_mem hv, List.idxOf_append_of_notMem hb]
  have := List.idxOf_lt_length_of_mem hv
  omega

theorem Sorted.idxOf_lt_of_transGen (hl : G.Sorted l) (hu : u ∈ l) (h : TransGen G.Step u v) :
    l.idxOf v < l.idxOf u := by
  induction h with
  | single h => exact hl.idxOf_lt hu h
  | tail hc h ih => exact (hl.idxOf_lt (hl.mem_of_reaches hu hc.to_reflTransGen) h).trans ih

/-- No cycle can be reached from a uid of a sorted list. -/
theorem Sorted.not_cyclic (hl : G.Sorted l) (hu : u ∈ l) : ¬ G.Cyclic u := by
  rintro ⟨v, hv, hc⟩
  exact lt_irrefl _ (hl.idxOf_lt_of_transGen (hl.mem_of_reaches hu hv) hc)

theorem IsOrder.not_cyclic (h : G.IsOrder start l) : ¬ G.Cyclic start :=
  h.sorted.not_cyclic ((h.mem_iff start).2 .refl)

theorem IsCycle.cyclic (h : G.IsCycle start c) : G.Cyclic start := by
  match c, h with
  | [], h => exact absurd h.two_le_length (by simp)
  | [u], h => exact absurd h.two_le_length (by simp)
  | u :: v :: c, h =>
    obtain ⟨huv, hc⟩ := List.isChain_cons_cons.1 h.chain
    have hl : (v :: c).getLast (by simp) = u := by
      have := h.closed
      rw [List.head?_cons, List.getLast?_cons_cons, List.getLast?_eq_some_getLast (by simp)] at this
      exact (Option.some.inj this).symm
    have hr := List.relationReflTransGen_of_exists_isChain_cons c hc hl
    exact ⟨u, h.reached u List.mem_cons_self, TransGen.head' huv hr⟩

/-! ### The search -/

/-- A state of the search: a path from the start, its end first, and the uids that are finished. -/
structure Searching (G : Digraph) (start : Uid) (path done : List Uid) : Prop where
  path_nodup : path.Nodup
  path_chain : path.IsChain fun v u => G.Step u v
  path_reached : ∀ u ∈ path, G.Reaches start u
  done_nodup : done.Nodup
  done_sorted : G.Sorted done
  done_reached : ∀ u ∈ done, G.Reaches start u
  apart : ∀ u ∈ path, u ∉ done

theorem searching_start : G.Searching start [start] [] where
  path_nodup := by simp
  path_chain := by simp
  path_reached u hu := by
    obtain rfl : u = start := by simpa using hu
    exact .refl
  done_nodup := by simp
  done_sorted := sorted_nil
  done_reached := by simp
  apart := by simp

namespace Searching

theorem reached_of_step (hs : G.Searching start (u :: rest) done) (h : G.Step u v) :
    G.Reaches start v :=
  (hs.path_reached u List.mem_cons_self).tail h

/-- The search goes into a successor that is neither finished nor on the path. -/
theorem enter (hs : G.Searching start (u :: rest) done) (h : G.Step u v) (hd : v ∉ done)
    (hp : v ∉ u :: rest) : G.Searching start (v :: u :: rest) done where
  path_nodup := List.nodup_cons.2 ⟨hp, hs.path_nodup⟩
  path_chain := List.isChain_cons_cons.2 ⟨h, hs.path_chain⟩
  path_reached := List.forall_mem_cons.2 ⟨hs.reached_of_step h, hs.path_reached⟩
  done_nodup := hs.done_nodup
  done_sorted := hs.done_sorted
  done_reached := hs.done_reached
  apart := List.forall_mem_cons.2 ⟨hd, hs.apart⟩

/-- The search leaves the end of the path, which is finished once all its successors are. -/
theorem leave (hs : G.Searching start (u :: rest) done) (h : ∀ v, G.Step u v → v ∈ done) :
    G.Searching start rest (done ++ [u]) where
  path_nodup := (List.nodup_cons.1 hs.path_nodup).2
  path_chain := hs.path_chain.tail
  path_reached w hw := hs.path_reached w (List.mem_cons_of_mem u hw)
  done_nodup := by
    have hu : u ∉ done := hs.apart u List.mem_cons_self
    exact List.nodup_append.2 ⟨hs.done_nodup, by simp, by rintro w hw _ hx rfl; simp_all⟩
  done_sorted := hs.done_sorted.concat h
  done_reached w hw := by
    rcases List.mem_append.1 hw with hw | hw
    · exact hs.done_reached w hw
    · obtain rfl : w = u := by simpa using hw
      exact hs.path_reached w List.mem_cons_self
  apart w hw := by
    have hne : w ≠ u := fun h => (List.nodup_cons.1 hs.path_nodup).1 (h ▸ hw)
    simp [hne, hs.apart w (List.mem_cons_of_mem u hw)]

end Searching

theorem closeCycle_append {pre post : List Uid} (hv : v ∉ post) :
    closeCycle (pre ++ v :: post) v = (v :: (pre ++ [v])).reverse := by
  have hd : (post.reverse ++ (v :: pre.reverse)).dropWhile (· != v) = v :: pre.reverse := by
    rw [List.dropWhile_append_of_pos fun w hw => ?_]
    · simp
    · have : w ≠ v := fun h => hv (h ▸ List.mem_reverse.1 hw)
      simpa using this
  simp [closeCycle, hd]

/-- A successor on the path closes a cycle. -/
theorem Searching.isCycle_closeCycle (hs : G.Searching start (u :: rest) done) (h : G.Step u v)
    (hv : v ∈ u :: rest) : G.IsCycle start (closeCycle (u :: rest) v) := by
  obtain ⟨pre, post, hp⟩ := List.append_of_mem hv
  have hn := hs.path_nodup
  rw [hp] at hn
  have hpost : v ∉ post := (List.nodup_cons.1 (List.nodup_append.1 hn).2.1).1
  -- the part of the path from its end to `v`
  have hpre : (pre ++ [v]) <:+: u :: rest := ⟨[], post, by simp [hp]⟩
  have hchain : (v :: (pre ++ [v])).IsChain fun v u => G.Step u v := by
    have hc := List.IsChain.infix hs.path_chain hpre
    refine List.IsChain.cons hc fun y hy => ?_
    have : (pre ++ [v]).head? = some u := by
      cases pre <;> simp_all
    obtain rfl : u = y := by simpa [this] using hy
    exact h
  rw [hp, closeCycle_append hpost]
  refine ⟨by simp, by simp [List.getLast?_cons], ?_, List.isChain_reverse.2 hchain, fun w hw => ?_⟩
  · rw [List.dropLast_reverse, List.nodup_reverse]
    exact hpre.sublist.nodup hs.path_nodup
  · refine hs.path_reached w (?_ : w ∈ u :: rest)
    rcases List.mem_cons.1 (List.mem_reverse.1 hw) with rfl | hw
    · exact hv
    · exact hpre.subset hw

/-- What a search gives: a cycle, or a later state in which the goals are finished too. -/
def Finds (G : Digraph) (start : Uid) (path done goals : List Uid) : Except Cycle (List Uid) → Prop
  | .error c => G.IsCycle start c
  | .ok done' => G.Searching start path done' ∧ (∀ v ∈ done, v ∈ done') ∧ ∀ v ∈ goals, v ∈ done'

namespace Finds

variable {vs : List Uid} {r : Except Cycle (List Uid)}

theorem leave (h : G.Finds start (u :: rest) done (G.next u) (.ok done')) :
    G.Finds start rest done [u] (.ok (done' ++ [u])) := by
  obtain ⟨hs, hd, hu⟩ := h
  refine ⟨hs.leave hu, fun v hv => List.mem_append_left _ (hd v hv), fun v hv => ?_⟩
  exact List.mem_append_right _ hv

theorem cons_of_mem (h : G.Finds start path done vs r) (hv : v ∈ done) :
    G.Finds start path done (v :: vs) r := by
  match r, h with
  | .error c, h => exact h
  | .ok done', ⟨hs, hd, hvs⟩ => exact ⟨hs, hd, List.forall_mem_cons.2 ⟨hd v hv, hvs⟩⟩

theorem trans (h : G.Finds start path done [v] (.ok done')) (h' : G.Finds start path done' vs r) :
    G.Finds start path done (v :: vs) r := by
  obtain ⟨-, hd, hv⟩ := h
  match r, h' with
  | .error c, h' => exact h'
  | .ok done₂, ⟨hs, hd₂, hvs⟩ =>
    exact ⟨hs, fun w hw => hd₂ w (hd w hw), List.forall_mem_cons.2 ⟨hd₂ v (hv v (by simp)), hvs⟩⟩

end Finds

/-- **The search**: a visit finishes the end of the path and leaves it, or finds a cycle. -/
theorem finds_visit (path done : List Uid) (u : Uid) : ∀ rest, path = u :: rest →
    G.Searching start path done → G.Finds start rest done [u] (G.visit path done u) := by
  -- the goals of `visitAll` are successors of the end of the path, which stays the same
  apply visit.induct G
    (fun path done u => ∀ rest, path = u :: rest → G.Searching start path done →
      G.Finds start rest done [u] (G.visit path done u))
    (fun path done vs h => ∀ u rest, path = u :: rest → (∀ v ∈ vs, G.Step u v) →
      G.Searching start path done → G.Finds start path done vs (G.visitAll path done vs h))
  case case1 =>
    rintro path done u c hc ih rest rfl hs
    have hf := ih u rest rfl (fun v hv => hv) hs
    rw [visit]
    rw [hc] at hf ⊢
    exact hf
  case case2 =>
    rintro path done u done' hd ih rest rfl hs
    have hf := ih u rest rfl (fun v hv => hv) hs
    rw [visit]
    rw [hd] at hf ⊢
    exact hf.leave
  case case3 =>
    rintro path done h - u rest rfl - hs
    rw [visitAll]
    exact ⟨hs, fun v hv => hv, by simp⟩
  case case4 =>
    rintro path done v vs h hvs hv - ih u rest rfl hstep hs
    rw [visitAll, if_pos hv]
    exact (ih u rest rfl (fun w hw => hstep w (List.mem_cons_of_mem v hw)) hs).cons_of_mem hv
  case case5 =>
    rintro path done v vs h - hv hp - u rest rfl hstep hs
    rw [visitAll, if_neg hv, dif_pos hp]
    exact hs.isCycle_closeCycle (hstep v List.mem_cons_self) hp
  case case6 =>
    rintro path done v vs h - hv hp - c hc - ih u rest rfl hstep hs
    have hf := ih (u :: rest) rfl (hs.enter (hstep v List.mem_cons_self) hv hp)
    rw [visitAll, if_neg hv, dif_neg hp]
    simp only [hc] at hf ⊢
    exact hf
  case case7 =>
    rintro path done v vs h hvs hv hp - done' hd - ih ihs u rest rfl hstep hs
    have hf := ih (u :: rest) rfl (hs.enter (hstep v List.mem_cons_self) hv hp)
    rw [visitAll, if_neg hv, dif_neg hp]
    simp only [hd] at hf ⊢
    exact hf.trans (ihs u rest rfl (fun w hw => hstep w (List.mem_cons_of_mem v hw)) hf.1)

/-! ### The order -/

theorem getLast?_of_visit (h : G.visit path done u = .ok l) : l.getLast? = some u := by
  rw [visit] at h
  split at h
  · cases h
  · cases h
    exact List.getLast?_concat

theorem isOrder_of_ok (h : G.order start = .ok l) : G.IsOrder start l := by
  have hf := finds_visit [start] [] start [] rfl (searching_start (G := G))
  rw [← order, h] at hf
  obtain ⟨hs, -, hstart⟩ := hf
  have hmem : start ∈ l := hstart start List.mem_cons_self
  exact ⟨hs.done_nodup, fun u => ⟨hs.done_reached u, hs.done_sorted.mem_of_reaches hmem⟩,
    hs.done_sorted, getLast?_of_visit h⟩

theorem isCycle_of_error (h : G.order start = .error c) : G.IsCycle start c := by
  have hf := finds_visit [start] [] start [] rfl (searching_start (G := G))
  rwa [← order, h] at hf

theorem order_of_not_cyclic (h : ¬ G.Cyclic start) : ∃ l, G.order start = .ok l ∧ G.IsOrder start l := by
  cases hr : G.order start with
  | ok l => exact ⟨l, rfl, isOrder_of_ok hr⟩
  | error c => exact absurd (isCycle_of_error hr).cyclic h

theorem order_of_cyclic (h : G.Cyclic start) : ∃ c, G.order start = .error c ∧ G.IsCycle start c := by
  cases hr : G.order start with
  | ok l => exact absurd h (isOrder_of_ok hr).not_cyclic
  | error c => exact ⟨c, rfl, isCycle_of_error hr⟩

theorem order_of_next_nil (h : G.next start = []) : G.order start = .ok [start] := by
  have hall : ∀ (vs : List Uid) (hvs : ∀ v ∈ vs, v ∈ G.vertices), vs = [] →
      G.visitAll [start] [] vs hvs = .ok [] := by
    rintro vs hvs rfl
    rw [visitAll]
  rw [order, visit, hall _ _ h]
  rfl

/-! ### The successors decide

The vertices bound the search but have no part in it. -/

variable {H : Digraph}

theorem visit_congr (hn : ∀ u, G.next u = H.next u) (path done : List Uid) (u : Uid) :
    G.visit path done u = H.visit path done u := by
  apply visit.induct G
    (fun path done u => G.visit path done u = H.visit path done u)
    (fun path done vs h => ∀ ws h', vs = ws → G.visitAll path done vs h = H.visitAll path done ws h')
  case case1 =>
    intro path done u c hc ih
    rw [visit, visit, ← ih _ (H.next_mem u) (hn u), hc]
  case case2 =>
    intro path done u done' hd ih
    rw [visit, visit, ← ih _ (H.next_mem u) (hn u), hd]
  case case3 =>
    rintro path done h - _ h' rfl
    rw [visitAll, visitAll]
  case case4 =>
    rintro path done v vs h hvs hv - ih _ h' rfl
    rw [visitAll, visitAll, if_pos hv, if_pos hv]
    exact ih vs _ rfl
  case case5 =>
    rintro path done v vs h - hv hp - _ h' rfl
    rw [visitAll, visitAll, if_neg hv, if_neg hv, dif_pos hp, dif_pos hp]
  case case6 =>
    rintro path done v vs h - hv hp - c hc - ih _ h' rfl
    rw [visitAll, visitAll, if_neg hv, if_neg hv, dif_neg hp, dif_neg hp]
    simp only [← ih, hc]
  case case7 =>
    rintro path done v vs h hvs hv hp - done' hd - ih ihs _ h' rfl
    rw [visitAll, visitAll, if_neg hv, if_neg hv, dif_neg hp, dif_neg hp]
    simp only [← ih, hd]
    exact ihs vs _ rfl

theorem order_congr (hn : ∀ u, G.next u = H.next u) (start : Uid) : G.order start = H.order start :=
  visit_congr hn [start] [] start

end Digraph

namespace Store

theorem next_composition {g : Store} (u : Uid) : g.composition.next u = (g.subAlgorithms u).toList := rfl

theorem step_composition {g : Store} {u v : Uid} : g.composition.Step u v ↔ v ∈ g.subAlgorithms u :=
  Iff.rfl

/-- **The order of a composition** is total and exact: it sorts the classes that are parts of a class,
directly or not, unless one of them is a part of itself, and otherwise shows how. -/
theorem order_composition (g : Store) (a : Uid) :
    (¬ g.composition.Cyclic a →
      ∃ l, g.composition.order a = .ok l ∧ g.composition.IsOrder a l) ∧
    (g.composition.Cyclic a →
      ∃ c, g.composition.order a = .error c ∧ g.composition.IsCycle a c) :=
  ⟨Digraph.order_of_not_cyclic, Digraph.order_of_cyclic⟩

end Store

end DesignGraph
