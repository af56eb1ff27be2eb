import DesignGraph.Proofs.Entity.Plan

/-! # What a run reads

A run reads a store through a few queries. Two stores that answer these alike, as far as they are asked about
uids that are known (`Agrees`), have the same compositions, plans and texts, whatever else they hold.

* `Agrees.order_eq`: the same order of a composition, or the same cycle.
* `Agrees.plan_eq`: the same plan for known targets.
* `Agrees.render_eq`: the same text for a known algorithm. -/

namespace DesignGraph.Store

open Entity

/-- `h` answers as `g` does what a run asks. Labels and places in the lattices are asked for `known` uids
only, and what `g` holds is known. -/
structure Agrees (known : Uid → Prop) (g h : Store) : Prop where
  held : ∀ u ∈ g, known u
  labelOf : ∀ u, known u → h.labelOf u = g.labelOf u
  allClasses : ∀ root u, known u → (u ∈ h.allClasses root ↔ u ∈ g.allClasses root)
  directSubclasses : ∀ s u, known u →
    (u ∈ h.directSubclasses s "" .inverse ↔ u ∈ g.directSubclasses s "" .inverse)
  classesOf : ∀ u, h.classesOf u = g.classesOf u
  allMembers : ∀ root, h.allMembers root = g.allMembers root
  interfacesOf : ∀ s d, h.interfacesOf s "" d = g.interfacesOf s "" d
  partsOf : ∀ u, h.partsOf u = g.partsOf u
  dependenciesOf : ∀ s, h.dependenciesOf s "" = g.dependenciesOf s ""

theorem mem_of_mem_inter_allMembers {g : Store} {root : ClassRoot} {s : UidSet} {u : Uid}
    (hu : u ∈ g.allMembers root ∩ s) : u ∈ g :=
  (mem_allMembers.1 (UidSet.mem_inter.1 hu).1).1

namespace Agrees

variable {known : Uid → Prop} {g h : Store} (hgh : Agrees known g h) {s : Settings} {relevant : UidSet}
  {u v : Uid}

include hgh

theorem known_class (hu : u ∈ g.classesOf v) : known u := hgh.held u (mem_classesOf.1 hu).1

theorem known_member {root : ClassRoot} {s : UidSet} (hu : u ∈ g.allMembers root ∩ s) : known u :=
  hgh.held u (mem_of_mem_inter_allMembers hu)

/-! ### Composition -/

theorem partClasses_eq (p : Uid) : h.partClasses p = g.partClasses p := by
  refine UidSet.ext fun v => ?_
  rw [partClasses, partClasses, UidSet.mem_inter, UidSet.mem_inter, hgh.classesOf]
  exact and_congr_right fun hv => hgh.allClasses .algorithm v (hgh.known_class hv)

theorem subAlgorithms_eq (u : Uid) : h.subAlgorithms u = g.subAlgorithms u := by
  have hp : h.partClasses = g.partClasses := funext hgh.partClasses_eq
  rw [subAlgorithms, subAlgorithms, hgh.partsOf, hp]

/-- **The order of a composition**, or the cycle it has instead. -/
theorem order_eq (u : Uid) : h.composition.order u = g.composition.order u := by
  refine Digraph.order_congr (fun u => ?_) u
  exact congrArg UidSet.toList (hgh.subAlgorithms_eq u)

/-! ### Plans -/

theorem notGenerated_iff (hu : known u) : u ∈ h.notGenerated ↔ u ∈ g.notGenerated := by
  rw [notGenerated, notGenerated, UidSet.mem_insert, UidSet.mem_insert, hgh.allClasses _ u hu]

theorem known_of_reaches (hu : known u) (hr : g.composition.Reaches u v) : known v := by
  rcases Relation.ReflTransGen.cases_tail hr with rfl | ⟨w, -, hv⟩
  · exact hu
  · exact hgh.held v (g.mem_uidList_of_mem_subAlgorithms w v hv)

/-- **Plans**: known targets are planned alike. -/
theorem plan_eq {targets : UidSet} (s : Settings) (ht : ∀ t ∈ targets, known t) :
    h.plan s targets = g.plan s targets := by
  refine List.foldl_ext _ _ _ fun p target htarget => ?_
  rw [Plan.addTarget, Plan.addTarget, hgh.order_eq]
  split
  · rfl
  · rename_i order ho
    refine Plan.add_congr fun u hu => hgh.notGenerated_iff ?_
    split at hu
    · exact hgh.known_of_reaches (ht target htarget) (((Digraph.isOrder_of_ok ho).mem_iff u).1 hu)
    · rw [List.mem_singleton.1 hu]
      exact ht target htarget

/-! ### Types and ports -/

theorem context_eq (hu : known u) : h.context u = g.context u := by
  have hc : h.classesOf = g.classesOf := funext hgh.classesOf
  simp only [context, hgh.labelOf u hu, hgh.interfacesOf, hgh.allMembers, hc, hgh.partsOf]

theorem typeName_eq (hu : known u) : h.typeName s u = g.typeName s u := by
  rw [typeName, typeName, hgh.labelOf u hu]

theorem inputPort_eq (hu : known u) : h.inputPort u = g.inputPort u := by
  rw [inputPort, inputPort, hgh.labelOf u hu]

theorem outputPort_eq (hu : known u) : h.outputPort u = g.outputPort u := by
  rw [outputPort, outputPort, hgh.labelOf u hu]

theorem declarations_eq (s : Settings) (name : String) (u : Uid) :
    h.declarations s name u = g.declarations s name u := by
  rw [declarations, declarations, interfaceClassesOf, interfaceClassesOf, hgh.classesOf]
  exact List.map_congr_left fun c hc => by rw [hgh.typeName_eq (hgh.known_class hc)]

theorem resolutions_eq (hrel : ∀ u ∈ relevant, known u) (c : Context) :
    h.resolutions relevant c = g.resolutions relevant c := by
  have hdirect : ∀ i, relevant ∩ h.directSubclasses (.single i) "" .inverse =
      relevant ∩ g.directSubclasses (.single i) "" .inverse := by
    intro i
    refine UidSet.ext fun v => ?_
    rw [UidSet.mem_inter, UidSet.mem_inter]
    exact and_congr_right fun hv => hgh.directSubclasses _ v (hrel v hv)
  simp only [resolutions, hdirect]

theorem typeNotices_eq (hrel : ∀ u ∈ relevant, known u) (c : Context) :
    h.typeNotices relevant c = g.typeNotices relevant c := by
  rw [typeNotices, typeNotices, hgh.resolutions_eq hrel]

/-- The same datatypes count, and they are called the same. -/
theorem subtypes_eq {c : Context} (hrel : ∀ u ∈ relevant, known u) (hc : ∀ u ∈ c.interfaceClasses, known u) :
    (h.resolutions relevant c).flatMap (h.subtypes s) =
      (g.resolutions relevant c).flatMap (g.subtypes s) := by
  rw [hgh.resolutions_eq hrel]
  refine List.flatMap_congr fun r hr => ?_
  obtain ⟨i, hi, rfl⟩ := List.mem_map.1 hr
  rw [subtypes, subtypes, hgh.typeName_eq (hc i hi)]
  exact List.map_congr_left fun d hd => by rw [hgh.labelOf d (hrel d (UidSet.mem_inter.1 hd).1)]

/-! ### Parts -/

theorem partInputs_eq (p : Uid) : h.partInputs p = g.partInputs p := by
  rw [partInputs, partInputs, hgh.allMembers, hgh.interfacesOf]

theorem partOutputs_eq (p : Uid) : h.partOutputs p = g.partOutputs p := by
  rw [partOutputs, partOutputs, hgh.allMembers, hgh.interfacesOf]

theorem owners_eq (parts : UidSet) (u : Uid) : h.owners parts u = g.owners parts u := by
  rw [owners, owners, hgh.interfacesOf]

theorem partSignals_eq (s : Settings) (p : Uid) : h.partSignals s p = g.partSignals s p := by
  rw [partSignals, partSignals, hgh.partInputs_eq, hgh.partOutputs_eq]
  refine congrArg₂ _ (List.flatMap_congr fun i hi => ?_) (List.flatMap_congr fun o ho => ?_)
  · rw [hgh.declarations_eq, hgh.inputPort_eq (hgh.known_member hi)]
  · rw [hgh.declarations_eq, hgh.outputPort_eq (hgh.known_member ho)]

theorem inputWires_eq (parts : UidSet) (hu : known u) : h.inputWires parts u = g.inputWires parts u := by
  rw [inputWires, inputWires, hgh.owners_eq, hgh.inputPort_eq hu]

theorem outputWires_eq (parts : UidSet) (hu : known u) : h.outputWires parts u = g.outputWires parts u := by
  rw [outputWires, outputWires, hgh.owners_eq, hgh.outputPort_eq hu]

theorem innerWires_eq (parts : UidSet) (p : Uid) : h.innerWires parts p = g.innerWires parts p := by
  rw [innerWires, innerWires, hgh.partInputs_eq]
  refine List.flatMap_congr fun i hi => ?_
  rw [hgh.dependenciesOf]
  refine List.flatMap_congr fun o ho => ?_
  have ho : known o := hgh.held o (mem_related.1 (UidSet.mem_inter.1 ho).1).1
  rw [hgh.owners_eq, hgh.inputPort_eq (hgh.known_member hi), hgh.outputPort_eq ho]

theorem instantiation_eq (p : Uid) (hu : known u) : h.instantiation p u = g.instantiation p u := by
  rw [instantiation, instantiation, hgh.labelOf u hu, hgh.partInputs_eq, hgh.partOutputs_eq]
  have hi : (g.partInputs p).map (fun i => binding p (h.inputPort i)) =
      (g.partInputs p).map fun i => binding p (g.inputPort i) :=
    List.map_congr_left fun i hi => by rw [hgh.inputPort_eq (hgh.known_member hi)]
  have ho : (g.partOutputs p).map (fun o => binding p (h.outputPort o)) =
      (g.partOutputs p).map fun o => binding p (g.outputPort o) :=
    List.map_congr_left fun o ho => by rw [hgh.outputPort_eq (hgh.known_member ho)]
  rw [hi, ho]

/-! ### Texts -/

theorem netlist_eq {c : Context} (hi : ∀ i ∈ c.inputs, known i) (ho : ∀ o ∈ c.outputs, known o) :
    h.netlist s c = g.netlist s c := by
  have hsignals : h.partSignals s = g.partSignals s := funext (hgh.partSignals_eq s)
  have hinner : h.innerWires c.parts = g.innerWires c.parts := funext (hgh.innerWires_eq c.parts)
  have hin : c.inputs.toList.flatMap (h.inputWires c.parts) =
      c.inputs.toList.flatMap (g.inputWires c.parts) :=
    List.flatMap_congr fun i hic => hgh.inputWires_eq c.parts (hi i hic)
  have hout : c.outputs.toList.flatMap (h.outputWires c.parts) =
      c.outputs.toList.flatMap (g.outputWires c.parts) :=
    List.flatMap_congr fun o hoc => hgh.outputWires_eq c.parts (ho o hoc)
  have hinst : c.parts.toList.flatMap (fun p => (h.partClasses p).toList.map (h.instantiation p)) =
      c.parts.toList.flatMap fun p => (g.partClasses p).toList.map (g.instantiation p) := by
    refine List.flatMap_congr fun p _ => ?_
    rw [hgh.partClasses_eq]
    exact List.map_congr_left fun a ha => hgh.instantiation_eq p (hgh.known_class (UidSet.mem_inter.1 ha).1)
  rw [netlist, netlist, hsignals, hinner, hin, hout, hinst]

/-- **Designs**: what is described by known datatypes is described alike. -/
theorem design_eq (hrel : ∀ u ∈ relevant, known u) (hu : known u) :
    h.design s relevant (h.context u) = g.design s relevant (g.context u) := by
  rw [hgh.context_eq hu]
  have hi : ∀ i ∈ (g.context u).inputs, known i := fun i hi => hgh.known_member hi
  have ho : ∀ o ∈ (g.context u).outputs, known o := fun o ho => hgh.known_member ho
  have hc : ∀ v ∈ (g.context u).interfaceClasses, known v := by
    intro v hv
    simp only [context, UidSet.mem_union, UidSet.mem_flatMap] at hv
    rcases hv with ⟨w, -, hv⟩ | ⟨w, -, hv⟩
    · exact hgh.known_class hv
    · exact hgh.known_class hv
  have hin : (g.context u).inputs.toList.flatMap (fun i => h.declarations s (h.inputPort i) i) =
      (g.context u).inputs.toList.flatMap fun i => g.declarations s (g.inputPort i) i :=
    List.flatMap_congr fun i hic => by rw [hgh.declarations_eq, hgh.inputPort_eq (hi i hic)]
  have hout : (g.context u).outputs.toList.flatMap (fun o => h.declarations s (h.outputPort o) o) =
      (g.context u).outputs.toList.flatMap fun o => g.declarations s (g.outputPort o) o :=
    List.flatMap_congr fun o hoc => by rw [hgh.declarations_eq, hgh.outputPort_eq (ho o hoc)]
  rw [design, design, hgh.subtypes_eq hrel hc, hgh.netlist_eq hi ho, hin, hout]

/-- **Texts**. -/
theorem render_eq (hrel : ∀ u ∈ relevant, known u) (hu : known u) :
    h.render s relevant u = g.render s relevant u := by
  rw [render, render, hgh.design_eq hrel hu]

end Agrees

end DesignGraph.Store
