import DesignGraph.Proofs.Entity.Persist

/-! # What a run accounts for

Each algorithm that is planned is disposed of once: its entity is stored, or it fails because the class
that is to hold its text is refused (`Report.Disposes`, `Report.Disposes.generateNext`). The targets that
are not planned are those with a cycle, and they have failed from the start. So a report accounts for all
targets (`Store.generate_accounts`). -/

namespace DesignGraph

open Store

namespace Entity

variable {s : Settings} {relevant : UidSet} {t : Trace} {a : Uid} {g : Store} {r : Report} {f : Failure}
  {skipped : List (Uid × String)} {done : List Uid}

/-- The algorithms with an entity. -/
def Report.algorithms (r : Report) : List Uid := r.generated.map (·.algorithm)

/-- The algorithms without one. -/
def Report.losses (r : Report) : List Uid := r.failed.map Prod.fst

/-! ### One algorithm -/

namespace Trace

/-- An algorithm fails only if the class that is to hold its text is refused. -/
theorem generateEntity_error (ha : a ∈ t.store.allClasses .algorithm)
    (h : (generateEntity s relevant t a).1 = .error f) :
    f = .cannotCreate (implementationUid s (t.store.labelOf a)) a := by
  have hmem : a ∈ t.store := (mem_allClasses.1 ha).1
  unfold generateEntity at h
  rw [if_neg (not_not_intro hmem)] at h
  simp only at h
  split at h
  · rename_i f' t' hp
    obtain rfl := Except.error.inj h
    cases hc : (holder s t.store (t.store.context a).name
        (t.store.design s relevant (t.store.context a)).text).result with
    | none =>
      have hnone := (persist_of_none (t := t.note (t.store.typeNotices relevant (t.store.context a)))
        (a := a) hc).1
      rw [hp] at hnone
      exact Except.error.inj hnone
    | some u =>
      have hsome := (persist_of_some (t := t.note (t.store.typeNotices relevant (t.store.context a)))
        hc ha).1
      rw [hp] at hsome
      cases hsome
  · cases h

end Trace

/-! ### A run -/

namespace Report

/-- The report disposes of these algorithms: after the skipped targets, the failures are those of the ones
among them whose class was refused, and the others have their entities. -/
def Disposes (skipped : List (Uid × String)) (done : List Uid) (r : Report) : Prop :=
  ∃ lost : List (Uid × Uid),
    r.failed = skipped ++ lost.map (fun c => (c.1, (Failure.cannotCreate c.2 c.1).message)) ∧
      (r.algorithms ++ lost.map Prod.fst).Perm done

theorem disposes_nil : Disposes skipped [] ⟨[], skipped⟩ := ⟨[], by simp, by simp [algorithms]⟩

namespace Disposes

/-- **The step**: the next algorithm has an entity or is lost, and nothing else changes. -/
theorem generateNext (hr : Disposes skipped done r) (ha : a ∈ t.store.allClasses .algorithm) :
    Disposes skipped (done ++ [a]) (Trace.generateNext s relevant (r, t) a).1 := by
  obtain ⟨lost, hfailed, hperm⟩ := hr
  unfold Trace.generateNext
  simp only
  split
  · rename_i e t' he
    have hspec := Trace.generateEntity_spec s relevant ha
    rw [he] at hspec
    obtain ⟨e', he', hd, -⟩ := hspec.resolve_left fun ⟨⟨f, hf⟩, _⟩ => by cases hf
    obtain rfl := Except.ok.inj he'
    refine ⟨lost, hfailed, ?_⟩
    have hnew : (algorithms ⟨r.generated ++ [e], r.failed⟩ ++ lost.map Prod.fst).Perm
        ((r.algorithms ++ lost.map Prod.fst) ++ [a]) := by
      simp only [algorithms, List.map_append, List.map_cons, List.map_nil, hd.algorithm,
        List.append_assoc]
      exact List.Perm.append_left _ List.perm_append_comm
    exact hnew.trans (hperm.append_right [a])
  · rename_i f t' he
    have hf := Trace.generateEntity_error ha (congrArg Prod.fst he)
    refine ⟨lost ++ [(a, Trace.implementationUid s (t.store.labelOf a))], ?_, ?_⟩
    · simp [hfailed, hf]
    · simp only [List.map_append, List.map_cons, List.map_nil, ← List.append_assoc]
      exact hperm.append_right [a]

theorem foldl (algorithms : List Uid) (h : ∀ a ∈ algorithms, a ∈ g.allClasses .algorithm)
    (hst : Trace.Stored s g r t.store) (hr : Disposes skipped done r) :
    Disposes skipped (done ++ algorithms) (algorithms.foldl (Trace.generateNext s relevant) (r, t)).1 := by
  induction algorithms generalizing r t done with
  | nil => simpa using hr
  | cons a l ih =>
    obtain ⟨ha, hl⟩ := List.forall_mem_cons.1 h
    have hstep : Disposes skipped (done ++ [a]) (Trace.generateNext s relevant (r, t) a).1 :=
      hr.generateNext (allClasses_mono hst.extended ha)
    have hrest := ih hl (hst.generateNext ha) hstep
    rwa [List.append_assoc, List.singleton_append] at hrest

theorem losses_perm (hr : Disposes skipped done r) :
    (r.algorithms ++ r.losses).Perm (skipped.map Prod.fst ++ done) := by
  obtain ⟨lost, hfailed, hperm⟩ := hr
  have hlosses : r.losses = skipped.map Prod.fst ++ lost.map Prod.fst := by
    simp [losses, hfailed, Function.comp_def]
  rw [hlosses]
  have hswap : (r.algorithms ++ (skipped.map Prod.fst ++ lost.map Prod.fst)).Perm
      (skipped.map Prod.fst ++ (r.algorithms ++ lost.map Prod.fst)) := by
    rw [← List.append_assoc, ← List.append_assoc]
    exact List.perm_append_comm.append_right _
  exact hswap.trans (hperm.append_left _)

end Disposes

/-- What a report of a run over these targets accounts for. -/
structure Accounts (g : Store) (s : Settings) (targets : UidSet) (r : Report) : Prop where
  /-- Each target has an entity or has failed. -/
  covered : ∀ a ∈ targets, a ∈ r.algorithms ∨ a ∈ r.losses
  /-- Nothing has done both. -/
  separate : ∀ a ∈ r.algorithms, a ∉ r.losses
  distinct : r.algorithms.Nodup ∧ r.losses.Nodup
  /-- Exactly the targets from which a cycle can be reached have failed because of one. -/
  cyclic : ∀ a, (∃ c, (a, cycleMessage c) ∈ r.failed) ↔ a ∈ targets ∧ g.composition.Cyclic a
  /-- The cycle that is shown is one. -/
  shown : ∀ a ∈ targets, g.composition.Cyclic a →
    ∃ c, g.composition.IsCycle a c ∧ (a, cycleMessage c) ∈ r.failed
  /-- Unless the settings are recursive, there are only targets. -/
  confined : s.recursive = false → ∀ a, a ∈ r.algorithms ∨ a ∈ r.losses → a ∈ targets

end Report

theorem getElem?_toList_append {p q : String} {i : ℕ} (h : i < p.toList.length) :
    (p ++ q).toList[i]? = p.toList[i]? := by
  rw [String.toList_append, List.getElem?_append_left h]

theorem cycleMessage_ne_cannotCreate (c : Cycle) (u : Uid) :
    cycleMessage c ≠ (Failure.cannotCreate u a).message := by
  intro h
  -- the second letters differ
  have hcycle : (cycleMessage c).toList[1]? = "Composition cycle: ".toList[1]? :=
    getElem?_toList_append (by decide +kernel)
  have hcreate : (Failure.cannotCreate u a).message.toList[1]? =
      "Cannot create implementation ".toList[1]? := getElem?_toList_append (by decide +kernel)
  rw [h, hcreate] at hcycle
  revert hcycle
  decide +kernel

end Entity

namespace Store

open Entity

variable {g : Store} {s : Settings} {targets : UidSet} {uid label : String} {r : Report} {t : Trace}
  {a : Uid}

theorem disposes_generate (h : g.generate s uid label = .ok (r, t))
    (hs : g.select uid label = .ok targets) :
    r.Disposes (g.skipped s targets) (g.plan s targets).order := by
  obtain ⟨targets', hs', rfl, -⟩ := generate_eq_ok.1 h
  obtain rfl := Except.ok.inj (hs.symm.trans hs')
  have hstart : Trace.Stored s g ⟨[], g.skipped s targets⟩
      ((Trace.start g).note ((g.skipped s targets).map fun c => .skipped c.1 c.2)).store :=
    Trace.stored_start
  exact Report.disposes_nil.foldl _ (fun a ha => mem_allClasses_of_mem_plan hs ha) hstart

theorem map_fst_skipped : (g.skipped s targets).map Prod.fst = (g.plan s targets).cyclic.map Prod.fst := by
  simp [skipped, Function.comp_def]

/-- The targets that are skipped and the algorithms that are planned are all different. -/
theorem nodup_skipped_append_order (g : Store) (s : Settings) (targets : UidSet) :
    ((g.skipped s targets).map Prod.fst ++ (g.plan s targets).order).Nodup := by
  have hserves := serves_plan g s targets
  rw [map_fst_skipped]
  refine List.nodup_append.2 ⟨hserves.skipped.nodup targets.nodup_toList, hserves.distinct, ?_⟩
  rintro u hu v hv rfl
  exact hserves.not_cyclic hv ((hserves.skipped_iff_mem u).1 hu).2

/-- **A run accounts for every target**. -/
theorem generate_accounts (h : g.generate s uid label = .ok (r, t))
    (hs : g.select uid label = .ok targets) : r.Accounts g s targets := by
  have hserves := serves_plan g s targets
  have hdisposes := disposes_generate h hs
  have hperm := hdisposes.losses_perm
  have hnodup := hperm.nodup_iff.2 (nodup_skipped_append_order g s targets)
  obtain ⟨hdistinct, hlosses, hseparate⟩ := List.nodup_append.1 hnodup
  have hmem : ∀ a, a ∈ r.algorithms ∨ a ∈ r.losses ↔
      a ∈ (g.plan s targets).cyclic.map Prod.fst ∨ a ∈ (g.plan s targets).order := by
    intro a
    rw [← List.mem_append, hperm.mem_iff, List.mem_append, map_fst_skipped]
  obtain ⟨lost, hfailed, -⟩ := hdisposes
  refine ⟨fun a ha => ?_, fun a ha hl => hseparate a ha a hl rfl, ⟨hdistinct, hlosses⟩, fun a => ?_,
    fun a ha hc => ?_, fun hrec a ha => ?_⟩
  · -- a target without a cycle is planned because it is not excluded
    rw [hmem, hserves.skipped_iff_mem]
    by_cases hc : g.composition.Cyclic a
    · exact .inl ⟨ha, hc⟩
    · have hx : a ∉ g.notGenerated := (UidSet.mem_diff.1 (mem_candidates_of_select hs ha)).2
      refine .inr ((hserves.mem_iff a).2 ⟨hx, a, ha, hc, ?_⟩)
      split
      · exact .refl
      · rfl
  · rw [← UidSet.mem_toList, ← hserves.skipped_iff_mem]
    constructor
    · rintro ⟨c, hc⟩
      rw [hfailed, List.mem_append] at hc
      rcases hc with hc | hc
      · rw [← map_fst_skipped (s := s)]
        exact List.mem_map_of_mem hc
      · obtain ⟨d, -, hd⟩ := List.mem_map.1 hc
        simp only [Prod.mk.injEq] at hd
        exact absurd hd.2.symm (cycleMessage_ne_cannotCreate c d.2)
    · intro ha
      obtain ⟨⟨a, c⟩, hc, rfl⟩ := List.mem_map.1 ha
      refine ⟨c, ?_⟩
      rw [hfailed]
      exact List.mem_append_left _ (List.mem_map_of_mem hc)
  · obtain ⟨⟨a, c⟩, hc', rfl⟩ := List.mem_map.1 ((hserves.skipped_iff a ha).2 hc)
    refine ⟨c, hserves.cycles _ hc', ?_⟩
    rw [hfailed]
    exact List.mem_append_left _ (List.mem_map_of_mem hc')
  · rcases (hmem a).1 ha with ha | ha
    · exact ((hserves.skipped_iff_mem a).1 ha).1
    · obtain ⟨-, target, ht, -, heq⟩ := (hserves.mem_iff a).1 ha
      simp only [hrec, Bool.false_eq_true, if_false] at heq
      exact heq ▸ ht

/-! ### An algorithm that is a part of itself -/

open Hyperedge in
/-- `Loop` is a part of itself, and `Filter` has no parts. -/
def loopAndFilter : Store where
  edges := vocabularyEdges ++ [
    concept "Loop" "Loop",
    fact (numbered Vocabulary.isA 6) "IS-A" ["Loop"] [Vocabulary.algorithm] Vocabulary.isA,
    concept "Filter" "Filter",
    fact (numbered Vocabulary.isA 7) "IS-A" ["Filter"] [Vocabulary.algorithm] Vocabulary.isA,
    concept "Loop1" "Loop",
    fact (numbered Vocabulary.instanceOf 1) "INSTANCE-OF" ["Loop1"] ["Loop"] Vocabulary.instanceOf,
    fact (numbered Vocabulary.partOfNetwork 1) "PART-OF" ["Loop1"] ["Loop"] Vocabulary.partOfNetwork]
  issued _ := 0
  distinct := by decide +kernel
  tidy := by decide +kernel

theorem cyclic_loopAndFilter : loopAndFilter.composition.Cyclic "Loop" := by
  have hstep : "Loop" ∈ loopAndFilter.subAlgorithms "Loop" := by decide +kernel
  exact ⟨"Loop", .refl, .single (step_composition.2 hstep)⟩

/-- One target has failed because of its cycle, and the other one is accounted for all the same. -/
theorem generate_accounts_loopAndFilter : ∃ r t targets,
    loopAndFilter.generate .default "" "" = .ok (r, t) ∧ loopAndFilter.select "" "" = .ok targets ∧
      r.Accounts loopAndFilter .default targets ∧ "Loop" ∈ r.losses ∧
      ("Filter" ∈ r.algorithms ∨ "Filter" ∈ r.losses) := by
  have hs : loopAndFilter.select "" "" = .ok (.ofList ["Filter", "Loop"]) := by decide +kernel
  have h := generate_eq_ok (t := (loopAndFilter.carryOut .default _).2.note _) |>.2 ⟨_, hs, rfl, rfl⟩
  have haccounts := generate_accounts h hs
  obtain ⟨c, hc⟩ := (haccounts.cyclic "Loop").2 ⟨by decide, cyclic_loopAndFilter⟩
  exact ⟨_, _, _, h, hs, haccounts, List.mem_map_of_mem hc, haccounts.covered "Filter" (by decide)⟩

end Store

end DesignGraph
