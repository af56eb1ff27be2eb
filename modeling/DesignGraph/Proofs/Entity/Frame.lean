import DesignGraph.Proofs.Entity.Agreement
import DesignGraph.Proofs.Model.Typing

/-! # What implementation classes leave alone

A run of the generator adds classes below implementation classes and algorithm classes (`Sprouts`). No
query that selects, orders or describes algorithms sees them: between the uids that were known before, the
lattices are the same (`Sprouts.mem_classes_iff`), the new classes are implementation classes
(`Sprouts.mem_implementation`), so no candidates, and nothing else changes but the lattices
(`Sprouts.agrees`). So candidates, plans and texts are the same (`Sprouts.candidates_eq`, `Sprouts.plan_eq`,
`Sprouts.render_eq`), and so are the datatypes, as long as neither the root of the implementations nor an
algorithm class is a datatype (`Sprouts.relevantDatatypes_eq`). -/

namespace DesignGraph

open Relation

namespace Store

variable {g h : Store} {d : Direction} {r u v w : Uid} {label : String} {root : ClassRoot}

theorem members_eq_allMembers (g : Store) (root : ClassRoot) : g.members root "" "" = g.allMembers root := rfl

/-- What may be added: new implementation classes, of known classes only below the root of the
implementations and below algorithm classes. -/
structure Sprout (g h : Store) (r : Uid) (S T : List Uid) : Prop where
  isA : r = Vocabulary.isA
  source : ∀ u ∈ S, u ∉ g ∧ u ∈ h.allClasses .implementation
  target : ∀ u ∈ T, u ∈ g → u = ClassRoot.implementation.uid ∨ u ∈ g.allClasses .algorithm

/-- `h` is `g` with new implementation classes. -/
structure Sprouts (g h : Store) : Prop where
  keeps : Keeps g h
  adds : Adds (Sprout g h) g h
  regular : Regular h

/-- Neither the root of the implementations nor an algorithm class is a datatype. -/
structure PureDatatypes (g : Store) : Prop where
  implementation : ClassRoot.implementation.uid ∉ g.allClasses .datatype
  algorithm : ∀ a ∈ g.allClasses .algorithm, a ∉ g.allClasses .datatype

namespace Sprouts

variable (hgh : Sprouts g h) (hg : Regular g)

include hgh

/-! ### Facts and lattices -/

theorem extends_ : Extends g h := hgh.adds.extends

/-- A fact from something known is old. -/
theorem leads_iff_of_source {k : Uid} (hv : v ∈ g) : h.Leads k .inverse u v ↔ g.Leads k .inverse u v := by
  refine ⟨fun ⟨S, T, hf, hu, hvS⟩ => ?_, hgh.extends_.leads⟩
  rcases hgh.adds.asserts_or hf with hf | hs
  · exact ⟨S, T, hf, hu, hvS⟩
  · exact absurd hv (hs.source v hvS).1

theorem leads_iff_of_ne {k : Uid} (hk : k ≠ Vocabulary.isA) : h.Leads k d u v ↔ g.Leads k d u v :=
  hgh.adds.leads_iff fun _ _ hs => hk hs.isA

include hg

/-- A chain that comes down to something known is old, and starts at something known. -/
theorem below_iff (hv : v ∈ g) : ReflTransGen (h.Leads Vocabulary.isA .inverse) u v ↔
    u ∈ g ∧ ReflTransGen (g.Leads Vocabulary.isA .inverse) u v := by
  constructor
  · intro hc
    induction hc using ReflTransGen.head_induction_on with
    | refl => exact ⟨hv, .refl⟩
    | head hl _ ih =>
      have hl := (hgh.leads_iff_of_source ih.1).1 hl
      exact ⟨hg.closed.far (leads_inverse_iff.1 hl), .head hl ih.2⟩
  · rintro ⟨-, hc⟩
    exact hc.lift id fun _ _ => hgh.extends_.leads

/-- Among the known uids, the same ones are below `s`. -/
theorem mem_subclasses_iff {s : UidSet} (hv : v ∈ g) :
    v ∈ h.subclasses s label .inverse ↔ v ∈ g.subclasses s label .inverse := by
  simp only [subclasses, filterByLabel, UidSet.mem_filter, hgh.keeps v hv, mem_closure]
  refine and_congr_left fun _ => exists_congr fun u => and_congr_right fun _ => ?_
  rw [hgh.below_iff hg hv]
  constructor
  · rintro ⟨-, hu, hc⟩
    exact ⟨hu, hc⟩
  · rintro ⟨hu, hc⟩
    exact ⟨hgh.extends_.mem hu, hu, hc⟩

theorem mem_classes_iff {below : UidSet} (hv : v ∈ g) :
    v ∈ h.classes root label below ↔ v ∈ g.classes root label below := by
  unfold classes
  simp only
  split
  · exact hgh.mem_subclasses_iff hg hv
  · rw [UidSet.mem_inter, UidSet.mem_inter, hgh.mem_subclasses_iff hg hv, hgh.mem_subclasses_iff hg hv]

theorem mem_allClasses_iff (hv : v ∈ g) : v ∈ h.allClasses root ↔ v ∈ g.allClasses root :=
  hgh.mem_classes_iff hg hv

/-- New classes are implementation classes. -/
theorem mem_implementation (hv : v ∉ g) (hr : v ∈ h.allClasses root) :
    v ∈ h.allClasses .implementation := by
  obtain ⟨-, -, hc⟩ := mem_allClasses.1 hr
  rcases ReflTransGen.cases_tail hc with rfl | ⟨w, -, S, T, hf, hw, hvS⟩
  · exact absurd (hg.root_mem root) hv
  rcases hgh.adds.asserts_or hf with hf | hs
  · exact absurd ((hg.closed _ _ _ hf).1 v hvS) hv
  · exact (hs.source v hvS).2

/-- A new class is in a lattice only if the implementation root or an algorithm class is. -/
theorem exists_of_new (hv : v ∉ g) (hr : v ∈ h.allClasses root) :
    ∃ c ∈ g.allClasses root, c = ClassRoot.implementation.uid ∨ c ∈ g.allClasses .algorithm := by
  obtain ⟨-, -, hc⟩ := mem_allClasses.1 hr
  have hstep : v ∈ g ∨
      ∃ c ∈ g.allClasses root, c = ClassRoot.implementation.uid ∨ c ∈ g.allClasses .algorithm := by
    clear hv hr
    induction hc with
    | refl => exact .inl (hg.root_mem root)
    | @tail a b hc hl ih =>
      rcases ih with ha | ih
      · obtain ⟨S, T, hf, haT, hbS⟩ := hl
        rcases hgh.adds.asserts_or hf with hf | hs
        · exact .inl ((hg.closed _ _ _ hf).1 b hbS)
        · have hroot := (hgh.below_iff hg ha).1 hc
          exact .inr ⟨a, mem_allClasses.2 ⟨ha, hroot⟩, hs.target a haT ha⟩
      · exact .inr ih
  exact hstep.resolve_left hv

theorem datatype_eq (hpure : g.PureDatatypes) : h.allClasses .datatype = g.allClasses .datatype := by
  refine UidSet.ext fun v => ?_
  by_cases hv : v ∈ g
  · exact hgh.mem_allClasses_iff hg hv
  · refine ⟨fun hr => ?_, fun hr => absurd (mem_allClasses.1 hr).1 hv⟩
    obtain ⟨c, hc, rfl | ha⟩ := hgh.exists_of_new hg hv hr
    · exact absurd hc hpure.implementation
    · exact absurd hc (hpure.algorithm c ha)

/-! ### Selection -/

/-- **Candidates**: the new classes are no candidates, and the others stay what they are. -/
theorem candidates_eq (label : String) : h.candidates label = g.candidates label := by
  refine UidSet.ext fun v => ?_
  rw [candidates, candidates, UidSet.mem_diff, UidSet.mem_diff]
  by_cases hv : v ∈ g
  · rw [hgh.mem_classes_iff hg hv, notGenerated, notGenerated, UidSet.mem_insert, UidSet.mem_insert,
      hgh.mem_allClasses_iff hg hv]
  · constructor
    · rintro ⟨hc, hn⟩
      have himpl := hgh.mem_implementation hg hv (mem_allClasses_of_mem_classes hc)
      exact absurd (UidSet.mem_insert.2 (.inr himpl)) hn
    · rintro ⟨hc, -⟩
      exact absurd (mem_of_mem_filterByLabel hc) hv

theorem select_eq (uid label : String) : h.select uid label = g.select uid label := by
  rw [select, select, hgh.candidates_eq hg]

theorem relevantDatatypes_eq (hpure : g.PureDatatypes) (s : Settings) :
    h.relevantDatatypes s = g.relevantDatatypes s := by
  have hsome : ∀ below : UidSet, h.classes .datatype "" below = g.classes .datatype "" below := by
    intro below
    refine UidSet.ext fun v => ?_
    by_cases hv : v ∈ g
    · exact hgh.mem_classes_iff hg hv
    · refine ⟨fun hc => ?_, fun hc => absurd (mem_allClasses.1 (mem_allClasses_of_mem_classes hc)).1 hv⟩
      have hd := mem_allClasses_of_mem_classes hc
      rw [hgh.datatype_eq hg hpure] at hd
      exact absurd (mem_allClasses.1 hd).1 hv
  unfold relevantDatatypes
  cases s.datatypeUid with
  | none => exact hgh.datatype_eq hg hpure
  | some u =>
    simp only
    split
    · exact hgh.datatype_eq hg hpure
    · exact hsome (.single u)

/-! ### Structure -/

/-- A query over kinds apart from the lattices finds the same. -/
theorem related_eq {k : Uid} {s : UidSet} (hk : k ∈ [Vocabulary.hasA, Vocabulary.partOf,
    Vocabulary.instanceOf, Vocabulary.dependsOn]) : h.related k s "" d = g.related k s "" d := by
  have hall : ∀ k ∈ [Vocabulary.hasA, Vocabulary.partOf, Vocabulary.instanceOf, Vocabulary.dependsOn],
      k ∈ vocabulary ∧ Vocabulary.isA ∉ vocabulary.subrelations (.single k) := by decide +kernel
  obtain ⟨hkv, hisA⟩ := hall k hk
  refine UidSet.ext fun v => ?_
  rw [mem_related, mem_related, hgh.regular.subrelations_eq hkv, hg.subrelations_eq hkv]
  have hleads : ∀ k' ∈ vocabulary.subrelations (.single k), ∀ u, h.Leads k' d u v ↔ g.Leads k' d u v :=
    fun k' hk' u => hgh.leads_iff_of_ne fun he => hisA (he ▸ hk')
  constructor
  · rintro ⟨-, k', hk', u, hu, hl⟩
    have hl := (hleads k' hk' u).1 hl
    exact ⟨hg.closed.far hl, k', hk', u, hu, hl⟩
  · rintro ⟨hv, k', hk', u, hu, hl⟩
    exact ⟨hgh.extends_.mem hv, k', hk', u, hu, (hleads k' hk' u).2 hl⟩

theorem classesOf_eq (u : Uid) : h.classesOf u = g.classesOf u :=
  hgh.related_eq hg (by simp)

theorem children_eq (s : UidSet) : h.children s "" d = g.children s "" d := by
  rw [children, children, hgh.related_eq hg (by simp), hgh.related_eq hg (by simp)]

theorem allMembers_eq (root : ClassRoot) : h.allMembers root = g.allMembers root := by
  refine UidSet.ext fun u => ?_
  rw [mem_allMembers, mem_allMembers, hgh.classesOf_eq hg]
  constructor
  · rintro ⟨-, c, hc, hr⟩
    have hcg := (mem_classesOf.1 hc).1
    obtain ⟨-, k, -, hl⟩ := mem_classesOf.1 hc
    exact ⟨hg.closed.near hl, c, hc, (hgh.mem_allClasses_iff hg hcg).1 hr⟩
  · rintro ⟨hu, c, hc, hr⟩
    exact ⟨hgh.extends_.mem hu, c, hc, allClasses_mono hgh.extends_ hr⟩

theorem interfacesOf_eq (s : UidSet) : h.interfacesOf s "" d = g.interfacesOf s "" d := by
  cases d <;> simp only [interfacesOf, members_eq_allMembers, hgh.children_eq hg, hgh.allMembers_eq hg]

theorem partsOf_eq (u : Uid) : h.partsOf u = g.partsOf u := by
  simp only [partsOf, componentsOf, members_eq_allMembers, hgh.children_eq hg, hgh.allMembers_eq hg]

theorem dependenciesOf_eq (s : UidSet) : h.dependenciesOf s "" = g.dependenciesOf s "" := by
  rw [dependenciesOf, dependenciesOf, members_eq_allMembers, members_eq_allMembers,
    hgh.related_eq hg (by simp), hgh.allMembers_eq hg]

/-- Among the known uids, the same ones are directly below `s`. -/
theorem mem_directSubclasses_iff {s : UidSet} (hv : v ∈ g) :
    v ∈ h.directSubclasses s "" .inverse ↔ v ∈ g.directSubclasses s "" .inverse := by
  have hisA : Vocabulary.isA ∈ vocabulary := by decide
  rw [directSubclasses, directSubclasses, mem_related, mem_related, hgh.regular.subrelations_eq hisA,
    hg.subrelations_eq hisA]
  constructor
  · rintro ⟨-, k, hk, u, hu, hl⟩
    exact ⟨hv, k, hk, u, hu, (hgh.leads_iff_of_source hv).1 hl⟩
  · rintro ⟨-, k, hk, u, hu, hl⟩
    exact ⟨hgh.extends_.mem hv, k, hk, u, hu, (hgh.leads_iff_of_source hv).2 hl⟩

/-- What a run asks about the uids that were known before, it is answered as before. -/
theorem agrees : Agrees (· ∈ g) g h where
  held _ hu := hu
  labelOf _ hu := hgh.keeps.labelOf hu
  allClasses _ _ hu := hgh.mem_allClasses_iff hg hu
  directSubclasses _ _ hu := hgh.mem_directSubclasses_iff hg hu
  classesOf := hgh.classesOf_eq hg
  allMembers := hgh.allMembers_eq hg
  interfacesOf _ _ := hgh.interfacesOf_eq hg _
  partsOf := hgh.partsOf_eq hg
  dependenciesOf := hgh.dependenciesOf_eq hg

/-- **Plans**: known targets are planned as before. -/
theorem plan_eq {targets : UidSet} (s : Settings) (ht : ∀ t ∈ targets, t ∈ g) :
    h.plan s targets = g.plan s targets :=
  (hgh.agrees hg).plan_eq s ht

/-- **Texts**: what is described by known datatypes reads the same. -/
theorem render_eq {s : Settings} {relevant : UidSet} {a : Uid} (hrel : ∀ u ∈ relevant, u ∈ g)
    (ha : a ∈ g) : h.render s relevant a = g.render s relevant a :=
  (hgh.agrees hg).render_eq hrel ha

end Sprouts
end Store
end DesignGraph
