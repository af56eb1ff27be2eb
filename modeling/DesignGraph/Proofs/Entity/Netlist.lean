import DesignGraph.Proofs.Entity.Lines
import DesignGraph.Proofs.Model.Action
import DesignGraph.Proofs.Model.Declared

/-! # The netlist of a composite

A part is wired by what it owns and by what its inputs depend on. Ownership is asked for from both ends: from
a part to its interfaces for signals and port maps, from an interface to its owners for assignments. Both
questions have one answer (`Store.mem_interfacesOf_inverse`), which the facts give (`Store.Owns`).

* `Store.assignments_design`: the assignments of an algorithm as pairs and quadruples of uids, which the facts
  tell (`Store.mem_pairs_owners`, `Store.mem_dependencies`).
* `Store.exists_partSignal_input` and the like: every interface that is wired has a signal or port. -/

namespace DesignGraph

open Relation Identifier

namespace Entity

/-! ### Pairs

The wires are listed by nested loops: each is made of the pair of an outer and an inner entry. -/

variable {α β γ : Type} {l : List α} {f : α → List β} {x : α} {y : β}

/-- The entries of a list, each with the entries of the list that belongs to it. -/
def pairs (l : List α) (f : α → List β) : List (α × β) := l.flatMap fun x => (f x).map (x, ·)

theorem mem_pairs : (x, y) ∈ pairs l f ↔ x ∈ l ∧ y ∈ f x := by
  simp [pairs]

theorem nodup_pairs (hl : l.Nodup) (hf : ∀ x, (f x).Nodup) : (pairs l f).Nodup := by
  refine List.nodup_flatMap.2 ⟨fun x _ => (hf x).map fun y z hyz => (Prod.mk.inj hyz).2, ?_⟩
  refine hl.imp fun {x z} hne q hx hz => hne ?_
  obtain ⟨y, -, rfl⟩ := List.mem_map.1 hx
  obtain ⟨y', -, heq⟩ := List.mem_map.1 hz
  exact (Prod.mk.inj heq).1.symm

theorem map_pairs (k : α × β → γ) :
    (pairs l f).map k = l.flatMap fun x => (f x).map fun y => k (x, y) := by
  simp [pairs, List.map_flatMap, Function.comp_def]

end Entity

open Entity

namespace Store

variable {g : Store} {kind r x u i o p a : Uid} {parts : UidSet}

/-! ### Ownership -/

/-- A fact of this kind, or of one that is declared below it in any number of steps, has `x` among its
sources and `u` among its targets. -/
def Relates (g : Store) (kind x u : Uid) : Prop :=
  ∃ r, ReflTransGen (g.Leads Vocabulary.subrelationOf .inverse) kind r ∧ g.Leads r .forward x u

/-- `u` is an interface instance and a structural child of `x`. -/
def Owns (g : Store) (x u : Uid) : Prop :=
  (g.Relates Vocabulary.hasA x u ∨ g.Relates Vocabulary.partOf u x) ∧ u ∈ g.allMembers .interface

theorem relates_iff (hk : kind ∈ g) : g.Relates kind x u ↔
    ∃ r ∈ g.subrelations (.single kind), g.Leads r .forward x u := by
  refine exists_congr fun r => and_congr_left fun _ => ?_
  rw [mem_subrelations_single, and_iff_right hk]

theorem mem_interfacesOf (hH : Vocabulary.hasA ∈ g) (hP : Vocabulary.partOf ∈ g) :
    u ∈ g.interfacesOf (.single x) "" .forward ↔ g.Owns x u := by
  have hdef : g.interfacesOf (.single x) "" .forward =
      g.children (.single x) "" .forward ∩ g.allMembers .interface := rfl
  rw [hdef, UidSet.mem_inter, mem_children, Owns, relates_iff hH, relates_iff hP]
  refine and_congr_left fun hu => ?_
  simp [leads_inverse_iff, (mem_allMembers.1 hu).1]

/-- **Both ends of ownership**: an interface is owned by the known uids whose interfaces it is among. -/
theorem mem_interfacesOf_inverse : x ∈ g.interfacesOf (.single u) "" .inverse ↔
    x ∈ g ∧ u ∈ g.interfacesOf (.single x) "" .forward := by
  have hforward : g.interfacesOf (.single x) "" .forward =
      g.children (.single x) "" .forward ∩ g.allMembers .interface := rfl
  have hinverse : g.interfacesOf (.single u) "" .inverse =
      g.related Vocabulary.hasA (.single u ∩ g.allMembers .interface) "" .inverse ∪
        g.related Vocabulary.partOf (.single u ∩ g.allMembers .interface) "" .forward := rfl
  rw [hforward, hinverse, UidSet.mem_inter, mem_children, UidSet.mem_union, mem_related, mem_related]
  by_cases hu : u ∈ g.allMembers .interface
  · have hug : u ∈ g := (mem_allMembers.1 hu).1
    simp [hu, hug, leads_inverse_iff, ← and_or_left]
  · simp [hu]

theorem mem_partInputs : i ∈ g.partInputs p ↔
    i ∈ g.allMembers .input ∧ i ∈ g.interfacesOf (.single p) "" .forward := UidSet.mem_inter

theorem mem_partOutputs : o ∈ g.partOutputs p ↔
    o ∈ g.allMembers .output ∧ o ∈ g.interfacesOf (.single p) "" .forward := UidSet.mem_inter

theorem mem_owners (hparts : ∀ p ∈ parts, p ∈ g) : p ∈ g.owners parts u ↔
    p ∈ parts ∧ u ∈ g.interfacesOf (.single p) "" .forward := by
  refine UidSet.mem_inter.trans (and_congr_right fun hp => ?_)
  rw [mem_interfacesOf_inverse, and_iff_right (hparts p hp)]

theorem mem_of_mem_partsOf (hp : p ∈ g.partsOf a) : p ∈ g :=
  (mem_allMembers.1 (UidSet.mem_inter.1 hp).2).1

/-! ### Assignments -/

variable {s : Settings} {relevant : UidSet}

theorem netlist_design_eq : (g.design s relevant (g.context a)).netlist =
    if (g.partsOf a).isEmpty then none else some (g.netlist s (g.context a)) := rfl

theorem netlist_design (hparts : ¬ (g.partsOf a).isEmpty) :
    (g.design s relevant (g.context a)).netlist = some (g.netlist s (g.context a)) := by
  rw [netlist_design_eq, if_neg hparts]

theorem mem_dependenciesOf (hD : Vocabulary.dependsOn ∈ g) : o ∈ g.dependenciesOf (.single i) "" ↔
    o ∈ g.allMembers .output ∧ g.Relates Vocabulary.dependsOn i o := by
  have hdef : g.dependenciesOf (.single i) "" =
      g.related Vocabulary.dependsOn (.single i) "" .forward ∩ g.allMembers .output := rfl
  rw [hdef, UidSet.mem_inter, mem_related, relates_iff hD, and_comm]
  refine and_congr_right fun ho => ?_
  simp [(mem_allMembers.1 ho).1]

theorem nodup_owners : (g.owners parts u).Nodup := UidSet.nodup_toList _

/-- The interfaces of a composite, each with the parts that own it as well. -/
theorem mem_pairs_owners {root : ClassRoot} {l : List Uid} (hH : Vocabulary.hasA ∈ g)
    (hP : Vocabulary.partOf ∈ g)
    (hl : u ∈ l ↔ u ∈ g.allMembers root ∧ u ∈ g.interfacesOf (.single a) "" .forward) :
    (u, p) ∈ pairs l (g.owners (g.partsOf a)) ↔
      (u ∈ g.allMembers root ∧ g.Owns a u) ∧ p ∈ g.partsOf a ∧ g.Owns p u := by
  rw [mem_pairs, hl, mem_owners fun _ => mem_of_mem_partsOf, mem_interfacesOf hH hP, mem_interfacesOf hH hP]

/-- A part, one of its inputs, an output that this depends on, and a part that owns the output. -/
def dependencies (g : Store) (parts : UidSet) : List (Uid × Uid × Uid × Uid) :=
  pairs parts.toList fun p => pairs (g.partInputs p) fun i =>
    pairs (g.dependenciesOf (.single i) "").toList (g.owners parts)

theorem nodup_dependencies : (g.dependencies parts).Nodup :=
  nodup_pairs (UidSet.nodup_toList _) fun _ => nodup_pairs (UidSet.nodup_toList _) fun _ =>
    nodup_pairs (UidSet.nodup_toList _) fun _ => nodup_owners

theorem mem_dependencies (hH : Vocabulary.hasA ∈ g) (hP : Vocabulary.partOf ∈ g)
    (hD : Vocabulary.dependsOn ∈ g) : (p, i, o, x) ∈ g.dependencies (g.partsOf a) ↔
      p ∈ g.partsOf a ∧ (i ∈ g.allMembers .input ∧ g.Owns p i) ∧
        (o ∈ g.allMembers .output ∧ g.Relates Vocabulary.dependsOn i o) ∧ x ∈ g.partsOf a ∧ g.Owns x o := by
  rw [dependencies, mem_pairs, mem_pairs, mem_pairs, UidSet.mem_toList, UidSet.mem_toList, mem_partInputs,
    mem_dependenciesOf hD, mem_owners fun _ => mem_of_mem_partsOf, mem_interfacesOf hH hP,
    mem_interfacesOf hH hP]

/-- The assignments of an algorithm, if it has parts or not. -/
theorem assignments_design (g : Store) (s : Settings) (relevant : UidSet) (a : Uid) :
    (g.design s relevant (g.context a)).assignments =
      (pairs (g.partInputs a) (g.owners (g.partsOf a))).map
          (fun (i, p) => ⟨ofSignal p (g.inputPort i), g.inputPort i⟩) ++
        (pairs (g.partOutputs a) (g.owners (g.partsOf a))).map
          (fun (o, p) => ⟨g.outputPort o, ofSignal p (g.outputPort o)⟩) ++
        (g.dependencies (g.partsOf a)).map
          (fun (p, i, o, q) => ⟨ofSignal p (g.inputPort i), ofSignal q (g.outputPort o)⟩) := by
  have hnetlist : (g.netlist s (g.context a)).assignments =
      (g.partInputs a).flatMap (g.inputWires (g.partsOf a)) ++
        (g.partOutputs a).flatMap (g.outputWires (g.partsOf a)) ++
        (g.partsOf a).toList.flatMap (g.innerWires (g.partsOf a)) := rfl
  have hboth : (g.design s relevant (g.context a)).assignments = (g.netlist s (g.context a)).assignments := by
    by_cases hparts : (g.partsOf a).isEmpty
    · have hlist : (g.partsOf a).toList = [] := List.isEmpty_iff.1 hparts
      have howners : ∀ u, g.owners (g.partsOf a) u = [] := fun u =>
        List.eq_nil_iff_forall_not_mem.2 fun p hp => by
          simpa [hlist] using UidSet.mem_toList.2 (UidSet.mem_inter.1 hp).1
      rw [Design.assignments, netlist_design_eq, if_pos hparts, hnetlist, hlist]
      simp [inputWires, outputWires, howners]
    · rw [Design.assignments, netlist_design hparts, Option.elim_some]
  rw [hboth, hnetlist, map_pairs, map_pairs, dependencies, map_pairs]
  simp only [map_pairs]
  rfl

open Hyperedge in
/-- An algorithm of two parts: `Blur1` reads its input, `Sobel1` writes its output and depends on `Blur1`. -/
def pipeline : Store where
  edges := vocabularyEdges ++ [
    concept "Edges" "Edges",
    fact (numbered Vocabulary.isA 6) "IS-A" ["Edges"] [Vocabulary.algorithm] Vocabulary.isA,
    concept "Blur" "Blur",
    fact (numbered Vocabulary.isA 7) "IS-A" ["Blur"] [Vocabulary.algorithm] Vocabulary.isA,
    concept "Sobel" "Sobel",
    fact (numbered Vocabulary.isA 8) "IS-A" ["Sobel"] [Vocabulary.algorithm] Vocabulary.isA,
    concept "Source" "Image",
    fact (numbered Vocabulary.isA 9) "IS-A" ["Source"] [Vocabulary.input] Vocabulary.isA,
    concept "Result" "Image",
    fact (numbered Vocabulary.isA 10) "IS-A" ["Result"] [Vocabulary.output] Vocabulary.isA,
    concept "Blur1" "blur",
    fact (numbered Vocabulary.instanceOf 1) "INSTANCE-OF" ["Blur1"] ["Blur"] Vocabulary.instanceOf,
    concept "Sobel1" "sobel",
    fact (numbered Vocabulary.instanceOf 2) "INSTANCE-OF" ["Sobel1"] ["Sobel"] Vocabulary.instanceOf,
    concept "Source1" "raw",
    fact (numbered Vocabulary.instanceOf 3) "INSTANCE-OF" ["Source1"] ["Source"] Vocabulary.instanceOf,
    concept "Source2" "left",
    fact (numbered Vocabulary.instanceOf 4) "INSTANCE-OF" ["Source2"] ["Source"] Vocabulary.instanceOf,
    concept "Result1" "smooth",
    fact (numbered Vocabulary.instanceOf 5) "INSTANCE-OF" ["Result1"] ["Result"] Vocabulary.instanceOf,
    concept "Result2" "edges",
    fact (numbered Vocabulary.instanceOf 6) "INSTANCE-OF" ["Result2"] ["Result"] Vocabulary.instanceOf,
    fact (numbered Vocabulary.partOfNetwork 1) "PART-OF" ["Blur1", "Sobel1"] ["Edges"]
      Vocabulary.partOfNetwork,
    fact (numbered Vocabulary.needs 1) "NEEDS" ["Blur1", "Edges"] ["Source1"] Vocabulary.needs,
    fact (numbered Vocabulary.needs 2) "NEEDS" ["Sobel1"] ["Source2"] Vocabulary.needs,
    fact (numbered Vocabulary.provides 1) "PROVIDES" ["Blur1"] ["Result1"] Vocabulary.provides,
    fact (numbered Vocabulary.provides 2) "PROVIDES" ["Edges", "Sobel1"] ["Result2"] Vocabulary.provides,
    fact (numbered Vocabulary.dependsOn 1) "DEPENDS-ON" ["Source2"] ["Result1"] Vocabulary.dependsOn]
  issued _ := 0
  distinct := by decide +kernel
  tidy := by decide +kernel

example : (pipeline.design .default ∅ (pipeline.context "Edges")).assignments.map assignmentLine = [
    "component_Blur1_input_raw <= input_raw;",
    "output_edges <= component_Sobel1_output_edges;",
    "component_Sobel1_input_left <= component_Blur1_output_smooth;"] := by decide +kernel

/-! ### Names of signals and ports -/

/-- An instance has a class, so that its name is declared at all. -/
theorem exists_mem_declarations {root : ClassRoot} (hu : u ∈ g.allMembers root) (s : Settings)
    (name : String) : ∃ t ∈ g.declarations s name u, t.name = name := by
  obtain ⟨-, c, hc, -⟩ := mem_allMembers.1 hu
  exact ⟨⟨name, g.typeName s c⟩, List.mem_map.2 ⟨c, hc, rfl⟩, rfl⟩

theorem exists_partSignal_input (hi : i ∈ g.partInputs p) (s : Settings) :
    ∃ t ∈ g.partSignals s p, t.name = ofSignal p (g.inputPort i) := by
  obtain ⟨t, ht, hname⟩ := exists_mem_declarations (mem_partInputs.1 hi).1 s (ofSignal p (g.inputPort i))
  exact ⟨t, List.mem_append_left _ (List.mem_flatMap.2 ⟨i, hi, ht⟩), hname⟩

theorem exists_partSignal_output (ho : o ∈ g.partOutputs p) (s : Settings) :
    ∃ t ∈ g.partSignals s p, t.name = ofSignal p (g.outputPort o) := by
  obtain ⟨t, ht, hname⟩ := exists_mem_declarations (mem_partOutputs.1 ho).1 s (ofSignal p (g.outputPort o))
  exact ⟨t, List.mem_append_right _ (List.mem_flatMap.2 ⟨o, ho, ht⟩), hname⟩

theorem exists_input_port (hi : i ∈ g.partInputs a) :
    ∃ t ∈ (g.design s relevant (g.context a)).inputs, t.name = g.inputPort i := by
  obtain ⟨t, ht, hname⟩ := exists_mem_declarations (mem_partInputs.1 hi).1 s (g.inputPort i)
  exact ⟨t, List.mem_flatMap.2 ⟨i, hi, ht⟩, hname⟩

theorem exists_output_port (ho : o ∈ g.partOutputs a) :
    ∃ t ∈ (g.design s relevant (g.context a)).outputs, t.name = g.outputPort o := by
  obtain ⟨t, ht, hname⟩ := exists_mem_declarations (mem_partOutputs.1 ho).1 s (g.outputPort o)
  exact ⟨t, List.mem_flatMap.2 ⟨o, ho, ht⟩, hname⟩

end Store

end DesignGraph
