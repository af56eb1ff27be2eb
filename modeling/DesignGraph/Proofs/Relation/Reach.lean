import DesignGraph.ClassRoot
import DesignGraph.Proofs.Store.Growth
import Mathlib.Logic.Relation

/-! # What the queries find

`Leads g r d a b` says that some fact of the kind `r`, followed in the direction `d`, leads from `a` to
`b`. All queries without a label come down to it: a closure holds what chains of such steps reach from
its known roots (`mem_closure`), a one-step query what one step over an admitted kind reaches
(`mem_related`), a class lattice is the closure below its root (`mem_allClasses`), and an instance is a
member of a lattice if one of its classes lies in it (`mem_allMembers`).

A query finds no less in a larger store (`…_mono`), and no more where no fact was added of the kinds that
it follows (`…_eq`). -/

namespace DesignGraph

open Relation

namespace Direction

/-- Following a fact with these endpoints leads from `a` to `b`. -/
def Leads (d : Direction) (S T : List Uid) (a b : Uid) : Prop :=
  match d with
  | forward => a ∈ S ∧ b ∈ T
  | inverse => a ∈ T ∧ b ∈ S
  | both => a ∈ S ∧ b ∈ T ∨ a ∈ T ∧ b ∈ S

theorem exists_arc_iff {d : Direction} {e : Hyperedge} {a b : Uid} :
    (∃ x ∈ d.arcs e, a ∈ x.near ∧ b ∈ x.far) ↔ d.Leads e.sources e.targets a b := by
  cases d <;> simp [arcs, Leads]

end Direction

namespace Store

variable {P : Uid → List Uid → List Uid → Prop} {g h : Store} {d : Direction} {r u v : Uid}

/-- Some fact of the kind leads from `a` to `b`. -/
def Leads (g : Store) (r : Uid) (d : Direction) (a b : Uid) : Prop :=
  ∃ S T, g.Asserts r S T ∧ d.Leads S T a b

theorem Extends.leads (hgh : Extends g h) {a b : Uid} (hl : g.Leads r d a b) : h.Leads r d a b := by
  obtain ⟨S, T, hf, hd⟩ := hl
  exact ⟨S, T, hgh.asserts hf, hd⟩

theorem Adds.leads_iff (hgh : Adds P g h) (hP : ∀ S T, ¬ P r S T) {a b : Uid} :
    h.Leads r d a b ↔ g.Leads r d a b := by
  refine ⟨fun ⟨S, T, hf, hd⟩ => ?_, hgh.extends.leads⟩
  exact ⟨S, T, (hgh.asserts_or hf).resolve_right (hP S T), hd⟩

theorem leads_inverse_iff {a b : Uid} : g.Leads r .inverse a b ↔ g.Leads r .forward b a := by
  constructor
  · rintro ⟨S, T, hf, ha, hb⟩
    exact ⟨S, T, hf, hb, ha⟩
  · rintro ⟨S, T, hf, hb, ha⟩
    exact ⟨S, T, hf, ha, hb⟩

/-- The facts of a store lead to known uids only. -/
def Closed (g : Store) : Prop :=
  ∀ r S T, g.Asserts r S T → (∀ u ∈ S, u ∈ g) ∧ ∀ u ∈ T, u ∈ g

theorem Closed.far (hg : g.Closed) {a b : Uid} (hl : g.Leads r d a b) : b ∈ g := by
  obtain ⟨S, T, hf, hd⟩ := hl
  obtain ⟨hS, hT⟩ := hg r S T hf
  cases d with
  | forward => exact hT b hd.2
  | inverse => exact hS b hd.2
  | both => exact hd.elim (fun h => hT b h.2) fun h => hS b h.2

theorem Closed.near (hg : g.Closed) {a b : Uid} (hl : g.Leads r .forward a b) : a ∈ g := by
  obtain ⟨S, T, hf, ha, -⟩ := hl
  exact (hg r S T hf).1 a ha

/-! ### Arcs and their closure -/

theorem exists_arc_iff {admits : Uid → Bool} {a b : Uid} :
    (∃ x ∈ g.arcs admits d, a ∈ x.near ∧ b ∈ x.far) ↔ ∃ r, admits r ∧ g.Leads r d a b := by
  simp only [arcs, List.mem_flatMap]
  constructor
  · rintro ⟨x, ⟨⟨r, e⟩, hf, hx⟩, hab⟩
    split at hx
    · rename_i hr
      obtain ⟨he, ha⟩ := mem_facts.1 hf
      exact ⟨r, hr, e.sources, e.targets, ⟨e, he, ha, rfl, rfl⟩, Direction.exists_arc_iff.1 ⟨x, hx, hab⟩⟩
    · simp at hx
  · rintro ⟨r, hr, S, T, ⟨e, he, ha, rfl, rfl⟩, hd⟩
    obtain ⟨x, hx, hab⟩ := Direction.exists_arc_iff.2 hd
    exact ⟨x, ⟨(r, e), mem_facts.2 ⟨he, ha⟩, by rwa [if_pos hr]⟩, hab⟩

theorem mem_step {admits : Uid → Bool} {s : UidSet} :
    v ∈ Arc.step (g.arcs admits d) s ↔ ∃ r, admits r ∧ ∃ u ∈ s, g.Leads r d u v := by
  rw [Arc.mem_step]
  constructor
  · rintro ⟨x, hx, hm, hv⟩
    obtain ⟨u, hu, hus⟩ := Arc.meets_iff.1 hm
    obtain ⟨r, hr, hl⟩ := exists_arc_iff.1 ⟨x, hx, hu, hv⟩
    exact ⟨r, hr, u, hus, hl⟩
  · rintro ⟨r, hr, u, hus, hl⟩
    obtain ⟨x, hx, hu, hv⟩ := exists_arc_iff.2 ⟨r, hr, hl⟩
    exact ⟨x, hx, Arc.meets_iff.2 ⟨u, hu, hus⟩, hv⟩

@[simp] theorem mem_known {s : UidSet} : u ∈ g.known s ↔ u ∈ s ∧ u ∈ g := by simp [known]

/-- **The closure**: what chains of facts of the kind reach from the known roots. -/
theorem mem_closure {s : UidSet} :
    v ∈ g.closure r d s ↔ ∃ u ∈ s, u ∈ g ∧ ReflTransGen (g.Leads r d) u v := by
  constructor
  · refine Arc.spread_subset _ _ (P := fun v => ∃ u ∈ s, u ∈ g ∧ ReflTransGen (g.Leads r d) u v)
      (fun u hu => ?_) fun x hx ⟨a, ha, u, hus, hu, hc⟩ b hb => ?_
    · obtain ⟨hus, hu⟩ := mem_known.1 hu
      exact ⟨u, hus, hu, .refl⟩
    · obtain ⟨r', hr', hl⟩ := exists_arc_iff.1 ⟨x, hx, ha, hb⟩
      obtain rfl : r' = r := by simpa using hr'
      exact ⟨u, hus, hu, hc.tail hl⟩
  · rintro ⟨u, hus, hu, hc⟩
    induction hc with
    | refl => exact Arc.subset_spread _ _ (mem_known.2 ⟨hus, hu⟩)
    | @tail a b _ hl ih =>
      obtain ⟨x, hx, ha, hb⟩ : ∃ x ∈ g.arcs (· == r) d, a ∈ x.near ∧ b ∈ x.far :=
        exists_arc_iff.2 ⟨r, beq_self_eq_true r, hl⟩
      exact Arc.far_subset_spread _ _ hx (Arc.meets_iff.2 ⟨a, ha, ih⟩) hb

theorem closure_mono (hgh : Extends g h) {s t : UidSet} (hst : ∀ u ∈ s, u ∈ t)
    (hv : v ∈ g.closure r d s) : v ∈ h.closure r d t := by
  obtain ⟨u, hus, hu, hc⟩ := mem_closure.1 hv
  exact mem_closure.2 ⟨u, hst u hus, hgh.mem hu, hc.lift id fun _ _ => hgh.leads⟩

/-! ### Hierarchies and one-step queries -/

theorem mem_subrelations {kinds : UidSet} : v ∈ g.subrelations kinds ↔
    ∃ k ∈ kinds, k ∈ g ∧ ReflTransGen (g.Leads Vocabulary.subrelationOf .inverse) k v :=
  mem_closure

theorem mem_subrelations_single {k : Uid} : v ∈ g.subrelations (.single k) ↔
    k ∈ g ∧ ReflTransGen (g.Leads Vocabulary.subrelationOf .inverse) k v := by
  simp [mem_subrelations]

@[simp] theorem mem_filterByLabel_empty {s : UidSet} : v ∈ g.filterByLabel s "" ↔ v ∈ s ∧ v ∈ g := by
  have hm : (fun u => (g.get? u).any fun e => labelMatches "" e.label) = fun u => (g.get? u).isSome := by
    funext u
    cases g.get? u <;> simp [labelMatches]
  have hs : (g.get? v).isSome ↔ v ∈ g := by
    rw [← Option.ne_none_iff_isSome, Ne, get?_eq_none_iff, Decidable.not_not]
  rw [filterByLabel, hm, UidSet.mem_filter, hs]

theorem mem_neighbours {s kinds : UidSet} :
    v ∈ g.neighbours s kinds "" d ↔ v ∈ g ∧ ∃ r ∈ kinds, ∃ u ∈ s, g.Leads r d u v := by
  rw [neighbours, mem_filterByLabel_empty, mem_step, and_comm]
  simp

theorem mem_related {s : UidSet} : v ∈ g.related r s "" d ↔
    v ∈ g ∧ ∃ k ∈ g.subrelations (.single r), ∃ u ∈ s, g.Leads k d u v :=
  mem_neighbours

theorem related_mono (hgh : Extends g h) {s t : UidSet} (hst : ∀ u ∈ s, u ∈ t)
    (hv : v ∈ g.related r s "" d) : v ∈ h.related r t "" d := by
  obtain ⟨hv, k, hk, u, hu, hl⟩ := mem_related.1 hv
  exact mem_related.2 ⟨hgh.mem hv, k, closure_mono hgh (fun _ h => h) hk, u, hst u hu, hgh.leads hl⟩

/-! ### Lattices and their members -/

theorem mem_allClasses {root : ClassRoot} : v ∈ g.allClasses root ↔
    v ∈ g ∧ root.uid ∈ g ∧ ReflTransGen (g.Leads Vocabulary.isA .inverse) root.uid v := by
  have he : g.allClasses root = g.subclasses (.single root.uid) "" .inverse := rfl
  rw [he, subclasses, mem_filterByLabel_empty, mem_closure]
  simp [and_comm]

theorem mem_classesOf : v ∈ g.classesOf u ↔
    v ∈ g ∧ ∃ k ∈ g.subrelations (.single Vocabulary.instanceOf), g.Leads k .forward u v := by
  rw [classesOf, instances, mem_related]
  simp

theorem mem_allMembers {root : ClassRoot} : u ∈ g.allMembers root ↔
    u ∈ g ∧ ∃ c ∈ g.classesOf u, c ∈ g.allClasses root := by
  have he : g.allMembers root = g.related Vocabulary.instanceOf (g.allClasses root) "" .inverse := rfl
  rw [he, mem_related]
  constructor
  · rintro ⟨hu, k, hk, c, hc, hl⟩
    exact ⟨hu, c, mem_classesOf.2 ⟨(mem_allClasses.1 hc).1, k, hk, leads_inverse_iff.1 hl⟩, hc⟩
  · rintro ⟨hu, c, hcu, hc⟩
    obtain ⟨-, k, hk, hl⟩ := mem_classesOf.1 hcu
    exact ⟨hu, k, hk, c, hc, leads_inverse_iff.2 hl⟩

theorem allClasses_mono (hgh : Extends g h) {root : ClassRoot} (hv : v ∈ g.allClasses root) :
    v ∈ h.allClasses root := by
  obtain ⟨hv, hr, hc⟩ := mem_allClasses.1 hv
  exact mem_allClasses.2 ⟨hgh.mem hv, hgh.mem hr, hc.lift id fun _ _ => hgh.leads⟩

theorem classesOf_mono (hgh : Extends g h) (hv : v ∈ g.classesOf u) : v ∈ h.classesOf u :=
  related_mono hgh (fun _ h => h) hv

theorem allMembers_mono (hgh : Extends g h) {root : ClassRoot} (hv : v ∈ g.allMembers root) :
    v ∈ h.allMembers root := by
  obtain ⟨hv, c, hc, hr⟩ := mem_allMembers.1 hv
  exact mem_allMembers.2 ⟨hgh.mem hv, c, classesOf_mono hgh hc, allClasses_mono hgh hr⟩

/-- A lattice below another: if its root lies in the other lattice, all its classes do. -/
theorem allClasses_subset {root root' : ClassRoot} (hr : root.uid ∈ g.allClasses root')
    (hv : v ∈ g.allClasses root) : v ∈ g.allClasses root' := by
  obtain ⟨-, hr', hc⟩ := mem_allClasses.1 hr
  obtain ⟨hv, -, hc'⟩ := mem_allClasses.1 hv
  exact mem_allClasses.2 ⟨hv, hr', hc.trans hc'⟩

theorem allMembers_subset {root root' : ClassRoot} (hr : root.uid ∈ g.allClasses root')
    (hv : v ∈ g.allMembers root) : v ∈ g.allMembers root' := by
  obtain ⟨hv, c, hc, hcr⟩ := mem_allMembers.1 hv
  exact mem_allMembers.2 ⟨hv, c, hc, allClasses_subset hr hcr⟩

theorem allClasses_eq (hg : g.Closed) (hgh : Adds P g h) {root : ClassRoot} (hr : root.uid ∈ g)
    (hP : ∀ S T, ¬ P Vocabulary.isA S T) : h.allClasses root = g.allClasses root := by
  refine UidSet.ext fun v => ⟨fun hv => ?_, allClasses_mono hgh.extends⟩
  obtain ⟨-, -, hc⟩ := mem_allClasses.1 hv
  have hc' : ReflTransGen (g.Leads Vocabulary.isA .inverse) root.uid v :=
    hc.lift id fun _ _ => (hgh.leads_iff hP).1
  refine mem_allClasses.2 ⟨?_, hr, hc'⟩
  cases hc' with
  | refl => exact hr
  | tail _ hl => exact hg.far hl

/-! ### Structure -/

theorem mem_children {s : UidSet} : v ∈ g.children s "" .forward ↔
    v ∈ g ∧ ((∃ r ∈ g.subrelations (.single Vocabulary.hasA), ∃ u ∈ s, g.Leads r .forward u v) ∨
      ∃ r ∈ g.subrelations (.single Vocabulary.partOf), ∃ u ∈ s, g.Leads r .inverse u v) := by
  rw [children, UidSet.mem_union, mem_related, mem_related, ← and_or_left]
  rfl

end Store

end DesignGraph
