import DesignGraph.Proofs.Instance.Isomorphism

/-! # Which deep copies observe the signatures

A deep copy repeats facts between copies without asking whether their ends are admitted, and a copy
realizes the classes of its template only. So an end may be admitted because it is itself a class, or both
a class and an instance, and its copy is not. `CopyTyped g c` says of the model before the copy that this
does not happen: whatever is repeated has ends whose copies realize classes below the roots that the
signature asks for.

* `Reached.typed_instantiateComponents_iff`: this is exactly what it takes for a deep copy to leave a typed
  model.
* `copyTyped_of_one_role`: it is enough that nothing in the structure is both an instance and a class.
* `Reached.not_typed_framedImage`: an interface that also is an algorithm is copied as an interface only. -/

namespace DesignGraph

open Relation Copying Store

namespace Store

variable {g h : Store} {r c u : Uid} {copy : Uid → Uid} {t : EndType}

/-- The copy of `k` is admitted at the end: a class that it realizes lies below the root. -/
def AdmitsCopy (g : Store) (c : Uid) (t : EndType) (k : Uid) : Prop :=
  ∃ x ∈ g.realized c k, x ∈ g.allClasses t.root

/-- A copy of the structure of `c` repeats a fact of the kind that leads from `o` to `k`: a structural fact
within the structure, or a connection that does not leave it. -/
def Repeats (g : Store) (c r o k : Uid) : Prop :=
  g.InStructure c o ∧ g.InStructure c k ∧
    (r ∈ g.subrelations (.single Vocabulary.hasA) ∪ g.subrelations (.single Vocabulary.partOf) ∧
        g.Leads r .forward o k ∨
      r ∈ g.subrelations (.single Vocabulary.connects) ∧ ∃ S T, g.Asserts r S T ∧ o ∈ S ∧ k ∈ T ∧
        ∀ u ∈ S ++ T, g.InStructure c u)

/-- All that is repeated by a copy of the structure of `c` observes the signatures between the copies. -/
def CopyTyped (g : Store) (c : Uid) : Prop :=
  ∀ s ∈ signatures, ∀ o k, g.Repeats c s.relation o k →
    g.AdmitsCopy c s.source o ∧ g.AdmitsCopy c s.target k

/-! ### What stays apart does not matter -/

section Apart

variable (hg : Regular g) (hh : Regular h) (hgh : Apart g h)

include hg hgh in
theorem admits_iff_of_apart (hu : u ∈ g) : h.Admits t u ↔ g.Admits t u := by
  refine or_congr (allMembers_iff_of_apart hg hgh hu) (and_congr_right fun _ => ?_)
  rw [hgh.allClasses_eq hg.closed (hg.root_mem t.root)]

include hg hh hgh in
theorem inStructure_iff_of_apart (hc : c ∈ g) {k : Uid} : h.InStructure c k ↔ g.InStructure c k := by
  rw [hg.inStructure_iff, hh.inStructure_iff]
  exact hgh.within_iff hg.closed (by decide) hc

include hg in
theorem mem_of_inStructure (hc : c ∈ g) {k : Uid} (hk : g.InStructure c k) : k ∈ g :=
  hg.closed.within hc (hg.inStructure_iff.1 hk)

include hg hgh in
theorem admitsCopy_iff_of_apart {k : Uid} (hk : k ∈ g) : h.AdmitsCopy c t k ↔ g.AdmitsCopy c t k := by
  rw [AdmitsCopy, AdmitsCopy, hgh.realized_eq hg.closed (hg.declares (by decide)).mem c hk,
    hgh.allClasses_eq hg.closed (hg.root_mem t.root)]

include hg hh hgh in
theorem repeats_iff_of_apart (hc : c ∈ g) {o k : Uid} : h.Repeats c r o k ↔ g.Repeats c r o k := by
  have hin : ∀ {k}, h.InStructure c k ↔ g.InStructure c k := inStructure_iff_of_apart hg hh hgh hc
  unfold Repeats
  simp only [hin]
  rw [hg.owning_eq, hg.containing_eq, hg.connecting_eq, hh.owning_eq, hh.containing_eq, hh.connecting_eq]
  refine and_congr_right fun ho => and_congr_right fun _ => or_congr (and_congr_right fun _ => ?_)
    (and_congr_right fun _ => ?_)
  · exact hgh.leads_iff (mem_of_inStructure hg hc ho)
  · constructor
    · rintro ⟨S, T, hf, hrest⟩
      refine ⟨S, T, hgh.asserts hf fun u hu => ?_, hrest⟩
      exact mem_of_inStructure hg hc (hrest.2.2 u (List.mem_append_left _ hu))
    · rintro ⟨S, T, hf, hrest⟩
      exact ⟨S, T, hgh.extends.asserts hf, hrest⟩

include hg hh hgh in
theorem copyTyped_iff_of_apart (hc : c ∈ g) : h.CopyTyped c ↔ g.CopyTyped c := by
  have hmem : ∀ {r o k}, g.Repeats c r o k → o ∈ g ∧ k ∈ g := fun hr =>
    ⟨mem_of_inStructure hg hc hr.1, mem_of_inStructure hg hc hr.2.1⟩
  constructor
  · intro ht s hs o k hr
    obtain ⟨ho, hk⟩ := ht s hs o k ((repeats_iff_of_apart hg hh hgh hc).2 hr)
    exact ⟨(admitsCopy_iff_of_apart hg hgh (hmem hr).1).1 ho,
      (admitsCopy_iff_of_apart hg hgh (hmem hr).2).1 hk⟩
  · intro ht s hs o k hr
    rw [repeats_iff_of_apart hg hh hgh hc] at hr
    obtain ⟨ho, hk⟩ := ht s hs o k hr
    exact ⟨(admitsCopy_iff_of_apart hg hgh (hmem hr).1).2 ho,
      (admitsCopy_iff_of_apart hg hgh (hmem hr).2).2 hk⟩

end Apart

/-! ### The copy of one class -/

section Class

variable (hg : Regular g) (hcg : c ∈ g) (hc : Copied g owningKinds containingKinds c copy h)

include hg hcg hc in
/-- What a copy is admitted as is decided by its template. -/
theorem admits_copy_iff {k : Uid} (hk : g.InStructure c k) :
    h.Admits t (copy k) ↔ g.AdmitsCopy c t k := by
  have hh := hg.copied hcg hc
  have hw := hg.inStructure_iff.1 hk
  rw [Admits, mem_allMembers_copy_iff hc hg hh hw, hc.apart.allClasses_eq hg.closed (hg.root_mem t.root)]
  -- a class of the model before the copy is no copy
  refine or_iff_left fun hcl => ?_
  exact absurd (mem_allClasses.1 hcl.2).1 (hc.fresh k hw).1

include hg hc in
/-- A repeated fact is there between the copies. -/
theorem exists_asserts_of_repeats {o k : Uid} (hr : g.Repeats c r o k) :
    ∃ S T, h.Asserts r S T ∧ copy o ∈ S ∧ copy k ∈ T := by
  obtain ⟨ho, hk, ⟨hkind, S, T, hf, hoS, hkT⟩ | ⟨hkind, S, T, hf, hoS, hkT, hall⟩⟩ := hr
  · rw [UidSet.mem_union, hg.owning_eq, hg.containing_eq] at hkind
    have := hc.held r o k (hg.sound r S T hf).declared hkind (hg.inStructure_iff.1 ho)
      (hg.inStructure_iff.1 hk) ⟨S, T, hf, hoS, hkT⟩
    exact ⟨_, _, this, List.mem_singleton_self _, List.mem_singleton_self _⟩
  · have hs := hg.sound r S T hf
    obtain ⟨S', T', hf', hS', hT'⟩ := hc.connected r S T hs.declared hkind hf hs.source.1 hs.target.1
      (fun u hu => hg.inStructure_iff.1 (hall u (List.mem_append_left _ hu)))
      fun u hu => hg.inStructure_iff.1 (hall u (List.mem_append_right _ hu))
    refine ⟨S', T', hf', (hS' _).2 ?_, (hT' _).2 ?_⟩
    · exact UidSet.mem_ofList.2 (List.mem_map_of_mem hoS)
    · exact UidSet.mem_ofList.2 (List.mem_map_of_mem hkT)

include hg in
/-- Each fact that a copy adds says what a copy realizes, or repeats a fact between each of its ends. -/
theorem repeats_of_copiedFact {S T : List Uid}
    (hf : CopiedFact g owningKinds containingKinds c copy r S T) :
    r = Vocabulary.instanceOf ∨ (∀ u ∈ S, ∃ o k, u = copy o ∧ g.Repeats c r o k) ∧
      ∀ u ∈ T, ∃ o k, u = copy k ∧ g.Repeats c r o k := by
  cases hf with
  | realizes => exact .inl rfl
  | @holds _ o k ho hk hr hl =>
    have hrep : g.Repeats c r o k := by
      refine ⟨hg.inStructure_iff.2 ho, hg.inStructure_iff.2 hk, .inl ⟨?_, hl⟩⟩
      rw [UidSet.mem_union, hg.owning_eq, hg.containing_eq]
      exact hr
    refine .inr ⟨fun u hu => ⟨o, k, List.mem_singleton.1 hu, hrep⟩, fun u hu => ⟨o, k, ?_, hrep⟩⟩
    exact List.mem_singleton.1 hu
  | @connects _ S T hf hne hr hS hT =>
    have hall : ∀ u ∈ S ++ T, g.InStructure c u := fun u hu =>
      hg.inStructure_iff.2 ((List.mem_append.1 hu).elim (hS u) (hT u))
    have hrep : ∀ o ∈ S, ∀ k ∈ T, g.Repeats c r o k := fun o ho k hk =>
      ⟨hall o (List.mem_append_left _ ho), hall k (List.mem_append_right _ hk),
        .inr ⟨hr, S, T, hf, ho, hk, hall⟩⟩
    obtain ⟨o₀, ho₀⟩ := List.exists_mem_of_ne_nil S hne.1
    obtain ⟨k₀, hk₀⟩ := List.exists_mem_of_ne_nil T hne.2
    refine .inr ⟨fun u hu => ?_, fun u hu => ?_⟩
    · obtain ⟨o, ho, rfl⟩ := List.mem_map.1 (UidSet.mem_ofList.1 hu)
      exact ⟨o, k₀, rfl, hrep o ho k₀ hk₀⟩
    · obtain ⟨k, hk, rfl⟩ := List.mem_map.1 (UidSet.mem_ofList.1 hu)
      exact ⟨o₀, k, rfl, hrep o₀ ho₀ k hk⟩

include hg hcg hc in
/-- **One class**: the copy leaves a typed model exactly if the model was typed and what is repeated
observes the signatures between the copies. -/
theorem typed_iff_of_copied : h.Typed ↔ g.Typed ∧ g.CopyTyped c := by
  constructor
  · intro ht
    refine ⟨fun s hs S T hf => ?_, fun s hs o k hr => ?_⟩
    · obtain ⟨hS, hT⟩ := ht s hs S T (hc.adds.extends.asserts hf)
      obtain ⟨hSg, hTg⟩ := hg.closed _ S T hf
      exact ⟨fun u hu => (admits_iff_of_apart hg hc.apart (hSg u hu)).1 (hS u hu),
        fun u hu => (admits_iff_of_apart hg hc.apart (hTg u hu)).1 (hT u hu)⟩
    · obtain ⟨S, T, hf, hoS, hkT⟩ := exists_asserts_of_repeats hg hc hr
      obtain ⟨hS, hT⟩ := ht s hs S T hf
      exact ⟨(admits_copy_iff hg hcg hc hr.1).1 (hS _ hoS),
        (admits_copy_iff hg hcg hc hr.2.1).1 (hT _ hkT)⟩
  · rintro ⟨ht, hct⟩ s hs S T hf
    rcases hc.adds.asserts_or hf with hf | hf
    · obtain ⟨hS, hT⟩ := ht s hs S T hf
      exact ⟨fun u hu => (hS u hu).mono hc.adds.extends, fun u hu => (hT u hu).mono hc.adds.extends⟩
    · obtain ⟨hS, hT⟩ := (repeats_of_copiedFact hg hf).resolve_left (relation_of_signature hs).2
      constructor
      · intro u hu
        obtain ⟨o, k, rfl, hr⟩ := hS u hu
        exact (admits_copy_iff hg hcg hc hr.1).2 (hct s hs o k hr).1
      · intro u hu
        obtain ⟨o, k, rfl, hr⟩ := hT u hu
        exact (admits_copy_iff hg hcg hc hr.2.1).2 (hct s hs o k hr).2

end Class

/-- Several classes one after the other: no copy changes what the next one repeats. -/
theorem typed_iff_of_copiedInTurn {classes tops : List Uid}
    (hturn : CopiedInTurn owningKinds containingKinds g classes tops h) (hg : Regular g)
    (hclasses : ∀ c ∈ classes, c ∈ g) : h.Typed ↔ g.Typed ∧ ∀ c ∈ classes, g.CopyTyped c := by
  induction hturn with
  | nil => simp
  | unknown hu _ _ => exact absurd (hclasses _ (by simp)) hu
  | @copied g g' h c copy classes tops hcg hc hrest ih =>
    have hg' : Regular g' := hg.copied hcg hc
    have hold : ∀ c' ∈ classes, c' ∈ g := fun c' hc' => hclasses c' (by simp [hc'])
    rw [ih hg' fun c' hc' => hc.keeps.mem (hold c' hc'), typed_iff_of_copied hg hcg hc, and_assoc,
      List.forall_mem_cons]
    refine and_congr_right fun _ => and_congr_right fun _ => forall₂_congr fun c' hc' => ?_
    exact copyTyped_iff_of_apart hg hg' hc.apart (hold c' hc')

/-- Where nothing in the structure is both an instance and a class, the copy observes the signatures. -/
theorem copyTyped_of_one_role (ht : g.Typed) (hc : c ∈ g.allClasses .component)
    (hroles : ∀ k, g.InStructure c k → (g.classesOf k).isEmpty ∨ ∀ root, k ∉ g.allClasses root) :
    g.CopyTyped c := by
  have hend : ∀ {t : EndType} {k}, g.InStructure c k → g.Admits t k → g.AdmitsCopy c t k := by
    intro t k hk ha
    rcases ha with hm | ⟨-, hcl⟩
    · -- an instance, so no class, and in particular not the class that is copied
      obtain ⟨-, x, hx, hxr⟩ := mem_allMembers.1 hm
      have hne : ¬ (g.classesOf k).isEmpty := UidSet.isEmpty_eq_false_iff.2 ⟨x, hx⟩
      have hkc : k ≠ c := by
        rintro rfl
        exact (hroles k hk).resolve_left hne _ hc
      refine ⟨x, ?_, hxr⟩
      rwa [realized, if_neg (by simp [hkc, hne])]
    · have he : (g.classesOf k).isEmpty := (hroles k hk).resolve_right fun h => h _ hcl
      refine ⟨k, ?_, hcl⟩
      rw [realized, if_pos (.inr he)]
      exact UidSet.mem_single.2 rfl
  rintro s hs o k ⟨ho, hk, hr⟩
  obtain ⟨S, T, hf, hoS, hkT⟩ : ∃ S T, g.Asserts s.relation S T ∧ o ∈ S ∧ k ∈ T := by
    rcases hr with ⟨-, S, T, hf, hoS, hkT⟩ | ⟨-, S, T, hf, hoS, hkT, -⟩
    · exact ⟨S, T, hf, hoS, hkT⟩
    · exact ⟨S, T, hf, hoS, hkT⟩
  obtain ⟨hS, hT⟩ := ht s hs S T hf
  exact ⟨hend ho (hS o hoS), hend hk (hT k hkT)⟩

end Store

namespace Reached

/-- **Typing of deep copies**: copying any set of component classes leaves a typed model exactly if the
model was typed and, for each of these classes, what its copy repeats observes the signatures. -/
theorem typed_instantiateComponents_iff {g : Store} (hg : Reached Operation.Modelling g)
    (classes : UidSet) : (g.instantiateComponents classes).2.Typed ↔
      g.Typed ∧ ∀ c ∈ classes, c ∈ g.allClasses .component → g.CopyTyped c := by
  obtain ⟨tops, h, hok, hturn⟩ := hg.regular.instantiateDeep_ok (classes ∩ g.allClasses .component)
  have hin : ∀ c, c ∈ (classes ∩ g.allClasses .component).toList ↔
      c ∈ classes ∧ c ∈ g.allClasses .component := fun c => UidSet.mem_inter
  rw [instantiateComponents, hok, typed_iff_of_copiedInTurn hturn hg.regular fun c hc =>
    (Store.mem_allClasses.1 ((hin c).1 hc).2).1]
  simp only [hin, and_imp]

/-- An interface of a component that also is an algorithm, which has an interface of its own. -/
def framedImage : List Operation := [
  .createClass .softwareInterface "Image" "" ∅,
  .instantiate (.single "Image") "raw",
  .instantiate (.single "Image") "mask",
  .createClass .algorithm "Image1" "" ∅,
  .hasInterface ["Image1"] ["Image2"],
  .createClass .component "Frame" "" ∅,
  .hasInterface ["Frame"] ["Image1"]]

theorem reached_framedImage :
    Reached Operation.Modelling (framedImage.foldl Operation.apply Store.blank) :=
  Reached.blank.foldl (by simp [framedImage, Operation.Modelling])

theorem typed_instantiateComponents_framedImage :
    let g := framedImage.foldl Operation.apply Store.blank
    Reached Operation.Modelling g ∧ ((g.instantiateComponents (.single "Frame")).2.Typed ↔
      g.Typed ∧ ∀ c ∈ UidSet.single "Frame", c ∈ g.allClasses .component → g.CopyTyped c) :=
  ⟨reached_framedImage, typed_instantiateComponents_iff reached_framedImage (.single "Frame")⟩

/-- The interface is copied as an interface only, and its copy has an interface. -/
theorem not_typed_framedImage :
    let g := framedImage.foldl Operation.apply Store.blank
    let h := (g.instantiateComponents (.single "Frame")).2
    Reached Operation.Modelling g ∧ h.Asserts Vocabulary.hasAInterface ["Image3"] ["Image4"] ∧
      ¬ h.Typed := by
  intro g h
  have hfact : h.Asserts Vocabulary.hasAInterface ["Image3"] ["Image4"] ∧
      "Image3" ∉ h.allMembers .component ∧ "Image3" ∉ h.allClasses .component := by decide +kernel
  refine ⟨reached_framedImage, hfact.1, fun ht => ?_⟩
  obtain ⟨hS, -⟩ := ht ⟨Vocabulary.hasAInterface, ⟨.component, true⟩, ⟨.interface, false⟩⟩
    (by simp [signatures]) _ _ hfact.1
  rcases hS "Image3" (List.mem_singleton_self _) with hm | ⟨-, hc⟩
  · exact hfact.2.1 hm
  · exact hfact.2.2 hc

end Reached

end DesignGraph
