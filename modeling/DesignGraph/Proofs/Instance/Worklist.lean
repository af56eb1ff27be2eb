import DesignGraph.Proofs.Instance.Copy
import DesignGraph.Proofs.Model.Bootstrap

/-! # The worklist of a deep copy

`Processes c l c'` says that the walk of a deep copy, started at `c`, takes the templates `l` from its queue
in this order and arrives at `c'`. A run that is not cut off is such a walk to an empty queue
(`run_eq_ok_iff`). The invariant of the walk goes along with it (`Walk.processes`), and it bounds the walk:
the templates taken are different uids of the store that the copy was started in.

`Store.instantiateDeep_finishes`: so the deep copy of any classes succeeds, whatever cycles and shared
children the graph holds. -/

namespace DesignGraph

open Store

namespace Copying

/-- From `c` the walk takes the templates `l` from the queue, one after the other, copies the children of
each, and is then at `c'`. -/
inductive Processes (owning containing : UidSet) : Copying → List Uid → Copying → Prop
  | nil (c : Copying) : Processes owning containing c [] c
  | cons {c c₁ c' : Copying} {t : Uid} {todo l : List Uid} (htodo : c.todo = t :: todo)
      (hexp : expand owning containing t { c with todo } = .ok c₁)
      (hrest : Processes owning containing c₁ l c') : Processes owning containing c (t :: l) c'

variable {g : Store} {owning containing : UidSet} {top u : Uid} {done l : List Uid} {c c' : Copying}

theorem Processes.of_run {n : Nat} (hrun : run owning containing n c = .ok c') :
    ∃ l, l.length ≤ n ∧ Processes owning containing c l c' ∧ c'.todo = [] := by
  fun_induction run owning containing n c with
  | case1 n c htodo =>
    obtain rfl := Except.ok.inj hrun
    exact ⟨[], Nat.zero_le n, .nil c, htodo⟩
  | case2 c t todo htodo => cases hrun
  | case3 c t todo htodo n f hexp => cases hrun
  | case4 c t todo htodo n c₁ hexp ih =>
    obtain ⟨l, hlen, hproc, hnil⟩ := ih hrun
    exact ⟨t :: l, Nat.succ_le_succ hlen, .cons htodo hexp hproc, hnil⟩

theorem Processes.run_eq (hp : Processes owning containing c l c') (hnil : c'.todo = []) :
    ∀ {n : Nat}, l.length ≤ n → run owning containing n c = .ok c' := by
  induction hp with
  | nil c =>
    intro n _
    unfold run
    rw [hnil]
  | @cons c c₁ c' t todo l htodo hexp _ ih =>
    intro n hn
    obtain ⟨n, rfl⟩ : ∃ m, n = m + 1 := ⟨n - 1, by simp at hn; omega⟩
    unfold run
    rw [htodo]
    simp only [hexp]
    exact ih hnil (by simpa using hn)

/-- **A run that is not cut off** is a walk of at most as many steps to an empty queue. -/
theorem run_eq_ok_iff {n : Nat} : run owning containing n c = .ok c' ↔
    ∃ l, l.length ≤ n ∧ Processes owning containing c l c' ∧ c'.todo = [] :=
  ⟨Processes.of_run, fun ⟨_, hlen, hp, hnil⟩ => hp.run_eq hnil hlen⟩

/-- The invariant goes along with the walk, and what is taken from the queue counts as done. -/
theorem Walk.processes (hg : g.Closed) (hio : Vocabulary.instanceOf ∈ g)
    (hc : Vocabulary.instanceOf ∉ containing) (hp : Processes owning containing c l c') :
    ∀ {done : List Uid}, Walk g owning containing top done c →
      Walk g owning containing top (done ++ l) c' := by
  induction hp with
  | nil c =>
    intro done hw
    rwa [List.append_nil]
  | @cons c c₁ c' t todo l htodo hexp _ ih =>
    intro done hw
    obtain ⟨c₂, hexp₂, hw₂, -⟩ := hw.step hg hio hc htodo
    obtain rfl : c₁ = c₂ := Except.ok.inj (hexp.symm.trans hexp₂)
    have hend := ih hw₂
    rwa [List.append_assoc] at hend

theorem Walk.nodup (hw : Walk g owning containing top done c) : (done ++ c.todo).Nodup :=
  hw.queued.nodup_iff.1 hw.distinct

theorem Walk.known (hw : Walk g owning containing top done c) {t : Uid} (ht : t ∈ done ++ c.todo) :
    t ∈ g := by
  obtain ⟨k', hp⟩ := hw.exists_copy ht
  exact (hw.within _ hp).1

/-- The copy of `u` in `f`, with `top` for the copy of `u` itself, is made by a walk that takes the
templates `l` from its queue and ends at `c` with nothing left to do. -/
structure Finishes (owning containing : UidSet) (f : Store) (u top : Uid) (l : List Uid) (c : Copying) :
    Prop where
  walked : ∃ f₁, f.instantiate (.single u) "" = (some top, f₁) ∧
    Processes owning containing ⟨f₁, [(u, top)], [u]⟩ l c
  emptied : c.todo = []
  once : l.Nodup
  /-- What is taken from the queue was there before the copy was begun. -/
  known : ∀ t ∈ l, t ∈ f
  /-- What stands for a template was not. -/
  created : ∀ p ∈ c.copies, p.2 ∉ f
  made : instantiateClass owning containing f u = .ok (some top, c.connect)

theorem exists_finishes (hg : g.Closed) (hio : Vocabulary.instanceOf ∈ g)
    (hc : Vocabulary.instanceOf ∉ containing) (hu : u ∈ g) :
    ∃ top l c, Finishes owning containing g u top l c := by
  obtain ⟨top, g₁, hmade, hm⟩ := exists_top hu
  have hw : Walk g owning containing u [] ⟨g₁, [(u, top)], [u]⟩ := .start hu hm
  have hbound : g.size ≤ stepBound g₁ := hm.adds.extends.size_le.trans (size_le_stepBound g₁)
  obtain ⟨c, -, hrun, -⟩ := run_ok hg hio hc (n := stepBound g₁) hw (by simpa using hbound) (by simp)
  obtain ⟨l, -, hp, hnil⟩ := Processes.of_run hrun
  have hend : Walk g owning containing u l c := hw.processes hg hio hc hp
  have hl : ∀ t ∈ l, t ∈ l ++ c.todo := fun t ht => List.mem_append_left _ ht
  refine ⟨top, l, c, ⟨g₁, hmade, hp⟩, hnil, ?_, fun t ht => hend.known (hl t ht),
    fun p hp => (hend.fresh p hp).1, ?_⟩
  · have hnodup := hend.nodup
    rwa [hnil, List.append_nil] at hnodup
  · rw [instantiateClass, hmade]
    simp only [hrun]
    rfl

end Copying

namespace Store

open Copying

variable {g : Store}

/-- The facts of a store lead to known uids only, told fact by fact. -/
theorem closed_iff : g.Closed ↔
    ∀ f ∈ g.facts, (∀ u ∈ f.2.sources, u ∈ g) ∧ ∀ u ∈ f.2.targets, u ∈ g := by
  constructor
  · rintro hg ⟨r, e⟩ hf
    obtain ⟨he, hr⟩ := mem_facts.1 hf
    exact hg r e.sources e.targets ⟨e, he, hr, rfl, rfl⟩
  · rintro hg r S T ⟨e, he, hr, rfl, rfl⟩
    exact hg (r, e) (mem_facts.2 ⟨he, hr⟩)

/-- **Deep copies finish**: in a graph that knows the generic relations, as every graph does that was opened
with vocabulary (`Level.held_copy`), whose facts lead to known uids only and where realizing a class is no
way of being a part of it, any set of classes can be copied. The known ones are copied one after the other,
each by a walk that takes no uid from its queue twice, and none that the copy has created. That realizing is
no way of owning either is not needed: from a template such a fact leads to its class, which was there
before. -/
theorem instantiateDeep_finishes (hg : g.Closed) (hvoc : ∀ d ∈ Level.conceptDeclarations, d.Held g)
    (hio : Vocabulary.instanceOf ∉ g.subrelations (.single Vocabulary.partOf)) (classes : UidSet) :
    let owning := g.subrelations (.single Vocabulary.hasA)
    let containing := g.subrelations (.single Vocabulary.partOf)
    ∃ tops h, g.instantiateDeep classes = (.ok tops, h) ∧
      classes.toList.foldlM (instantiateNext owning containing) (∅, g) = .ok (tops, h) ∧
      ∀ before u after, classes.toList = before ++ u :: after →
        ∃ made f, before.foldlM (instantiateNext owning containing) (∅, g) = .ok (made, f) ∧
          (u ∉ f → instantiateClass owning containing f u = .ok (none, f)) ∧
          (u ∈ f → ∃ top l c, Finishes owning containing f u top l c) := by
  intro owning containing
  have hios : Vocabulary.instanceOf ∈ g :=
    hvoc (.relation Vocabulary.instanceOf [] [] "INSTANCE-OF") (by decide)
  have hcos : Vocabulary.connects ∈ g := hvoc (.relation Vocabulary.connects [] [] "CONNECTS") (by decide)
  obtain ⟨tops, h, hall, -⟩ := foldlM_instantiateNext owning hio classes.toList ∅ g hg hios hcos
  have hdeep : g.instantiateDeep classes = (.ok (.ofList tops), h) := by
    rw [instantiateDeep, hall]
    rfl
  refine ⟨.ofList tops, h, hdeep, hall, fun before u after _ => ?_⟩
  -- the copies made before leave a graph that meets the same conditions
  obtain ⟨made, f, hbefore, hturn⟩ := foldlM_instantiateNext owning hio before ∅ g hg hios hcos
  have hf : f.Closed := hturn.closed hg
  have hiof : Vocabulary.instanceOf ∈ f := hturn.apart.extends.mem hios
  exact ⟨_, f, hbefore, instantiateClass_of_not_mem, exists_finishes hf hiof hio⟩

/-- A bicycle and its wheel own each other, the bicycle owns itself, and both own the spoke, which is also a
part of the wheel. -/
def bicycle : Store :=
  let g := ["Bicycle", "Wheel", "Spoke"].foldl (fun g u => (g.create u u).2) (Level.concepts.copy .empty)
  [(Vocabulary.hasA, "Bicycle", "Wheel"), (Vocabulary.hasA, "Wheel", "Bicycle"),
    (Vocabulary.hasA, "Bicycle", "Bicycle"), (Vocabulary.hasA, "Bicycle", "Spoke"),
    (Vocabulary.hasA, "Wheel", "Spoke"), (Vocabulary.partOf, "Spoke", "Wheel")].foldl
    (fun g f => (g.relateFrom f.1 (.single f.2.1) (.single f.2.2)).2) g

theorem instantiateDeep_finishes_bicycle :
    let owning := bicycle.subrelations (.single Vocabulary.hasA)
    let containing := bicycle.subrelations (.single Vocabulary.partOf)
    let classes := UidSet.ofList ["Bicycle", "Spoke"]
    bicycle.Closed ∧ (∀ d ∈ Level.conceptDeclarations, d.Held bicycle) ∧
      Vocabulary.instanceOf ∉ containing ∧
      (bicycle.instantiateDeep classes).1 = .ok (.ofList ["Bicycle1", "Spoke2"]) ∧
      ∃ top l c, Finishes owning containing bicycle "Bicycle" top l c := by
  intro owning containing classes
  have hfacts : (∀ f ∈ bicycle.facts, (∀ u ∈ f.2.sources, u ∈ bicycle) ∧ ∀ u ∈ f.2.targets, u ∈ bicycle) ∧
      (∀ d ∈ Level.conceptDeclarations, d.Held bicycle) ∧ Vocabulary.instanceOf ∉ containing ∧
      (bicycle.instantiateDeep classes).1 = .ok (.ofList ["Bicycle1", "Spoke2"]) ∧ "Bicycle" ∈ bicycle := by
    decide +kernel
  obtain ⟨hends, hvoc, hio, htops, hknown⟩ := hfacts
  have hclosed : bicycle.Closed := closed_iff.2 hends
  refine ⟨hclosed, hvoc, hio, htops, ?_⟩
  obtain ⟨-, -, -, -, hall⟩ := instantiateDeep_finishes hclosed hvoc hio classes
  obtain ⟨made, f, hbefore, -, hcopy⟩ := hall [] "Bicycle" ["Spoke"] (by decide)
  obtain rfl : bicycle = f := congrArg Prod.snd (Except.ok.inj hbefore)
  exact hcopy hknown

end Store

end DesignGraph
