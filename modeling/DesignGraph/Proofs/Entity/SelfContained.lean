import DesignGraph.Entity.Extract
import DesignGraph.Proofs.Model.Regular

/-! # Which types a text declares

The package of a text declares a type for every interface class of the algorithm itself that a datatype
realizes (`Store.declares_design`). The ports of the entity take their types from the same classes, so they
are declared whenever all these classes are resolved. The signals of a composite take theirs from the
classes of the interfaces of its parts, which nothing relates to those of the composite: they are declared
just if every such class has the type of an interface class of the composite (`Store.declares_types_iff`). -/

namespace DesignGraph

namespace Entity.Design

/-- The package of the design declares the type. -/
def Declares (d : Design) (type : String) : Prop := ∃ t ∈ d.subtypes, t.name = type

instance (d : Design) (type : String) : Decidable (d.Declares type) :=
  inferInstanceAs (Decidable (∃ t ∈ d.subtypes, t.name = type))

/-- The ports of the entity, without the standard signals. -/
def ports (d : Design) : List Typed := d.inputs ++ d.outputs

/-- The signals of the architecture. -/
def signals (d : Design) : List Typed := d.netlist.elim [] Netlist.signals

end Entity.Design

open Entity

namespace Store

variable {g : Store} {s : Settings} {relevant : UidSet} {a u : Uid} {name type : String} {t : Typed}

/-- Each class of the interface instance has one of the datatypes directly below it. -/
def Resolved (g : Store) (relevant : UidSet) (u : Uid) : Prop :=
  ∀ k ∈ g.classesOf u, ∃ d ∈ relevant, d ∈ g.directSubclasses (.single k) "" .inverse

instance (g : Store) (relevant : UidSet) (u : Uid) : Decidable (g.Resolved relevant u) :=
  inferInstanceAs (Decidable (∀ k ∈ (g.classesOf u).toList, ∃ d ∈ relevant.toList,
    d ∈ g.directSubclasses (.single k) "" .inverse))

theorem mem_interfaceClasses {k : Uid} : k ∈ (g.context a).interfaceClasses ↔
    ∃ u, (u ∈ (g.context a).inputs ∨ u ∈ (g.context a).outputs) ∧ k ∈ g.classesOf u := by
  simp only [context, UidSet.mem_union, UidSet.mem_flatMap]
  constructor
  · rintro (⟨u, hu, hk⟩ | ⟨u, hu, hk⟩)
    · exact ⟨u, .inl hu, hk⟩
    · exact ⟨u, .inr hu, hk⟩
  · rintro ⟨u, hu | hu, hk⟩
    · exact .inl ⟨u, hu, hk⟩
    · exact .inr ⟨u, hu, hk⟩

/-- **What the package declares**: the types of the interface classes that a datatype realizes. -/
theorem declares_design : (g.design s relevant (g.context a)).Declares type ↔
    ∃ k ∈ (g.context a).interfaceClasses, g.typeName s k = type ∧
      ∃ d ∈ relevant, d ∈ g.directSubclasses (.single k) "" .inverse := by
  simp only [Design.Declares, design, resolutions, subtypes, List.mem_flatMap, List.mem_map]
  constructor
  · rintro ⟨t, ⟨r, ⟨k, hk, rfl⟩, d, hd, rfl⟩, htype⟩
    obtain ⟨hrel, hbelow⟩ := UidSet.mem_inter.1 hd
    exact ⟨k, hk, htype, d, hrel, hbelow⟩
  · rintro ⟨k, hk, htype, d, hrel, hbelow⟩
    exact ⟨_, ⟨_, ⟨k, hk, rfl⟩, d, UidSet.mem_inter.2 ⟨hrel, hbelow⟩, rfl⟩, htype⟩

theorem mem_declarations : t ∈ g.declarations s name u ↔
    ∃ k ∈ g.classesOf u, t = ⟨name, g.typeName s k⟩ := by
  simp only [declarations, interfaceClassesOf, List.mem_map, UidSet.mem_toList, eq_comm]

/-- A port has the type of an interface class of the algorithm. -/
theorem type_of_mem_ports (ht : t ∈ (g.design s relevant (g.context a)).ports) :
    ∃ k ∈ (g.context a).interfaceClasses, t.type = g.typeName s k := by
  simp only [Design.ports, design, List.mem_append, List.mem_flatMap] at ht
  rcases ht with ⟨u, hu, ht⟩ | ⟨u, hu, ht⟩
  · obtain ⟨k, hk, rfl⟩ := mem_declarations.1 ht
    exact ⟨k, mem_interfaceClasses.2 ⟨u, .inl hu, hk⟩, rfl⟩
  · obtain ⟨k, hk, rfl⟩ := mem_declarations.1 ht
    exact ⟨k, mem_interfaceClasses.2 ⟨u, .inr hu, hk⟩, rfl⟩

/-- The signals of an algorithm are those of its parts, if it has parts or not. -/
theorem signals_design : (g.design s relevant (g.context a)).signals =
    (g.partsOf a).toList.flatMap (g.partSignals s) := by
  by_cases hparts : (g.partsOf a).isEmpty
  · have hnil : (g.partsOf a).toList = [] := List.isEmpty_iff.1 hparts
    simp [Design.signals, design, context, hparts, hnil]
  · simp [Design.signals, design, context, hparts, netlist]

/-- The types of the signals are those of the classes of the interfaces of the parts. -/
theorem exists_signal_iff : (∃ t ∈ (g.design s relevant (g.context a)).signals, t.type = type) ↔
    ∃ p ∈ g.partsOf a, ∃ u ∈ g.partInputs p ++ g.partOutputs p, ∃ k ∈ g.classesOf u,
      g.typeName s k = type := by
  rw [signals_design]
  simp only [List.mem_flatMap, partSignals, List.mem_append, mem_declarations]
  constructor
  · rintro ⟨t, ⟨p, hp, ⟨u, hu, k, hk, rfl⟩ | ⟨u, hu, k, hk, rfl⟩⟩, htype⟩
    · exact ⟨p, hp, u, .inl hu, k, hk, htype⟩
    · exact ⟨p, hp, u, .inr hu, k, hk, htype⟩
  · rintro ⟨p, hp, u, hu | hu, k, hk, htype⟩
    · exact ⟨_, ⟨p, hp, .inl ⟨u, hu, k, hk, rfl⟩⟩, htype⟩
    · exact ⟨_, ⟨p, hp, .inr ⟨u, hu, k, hk, rfl⟩⟩, htype⟩

/-- **Which types are declared**: where every class of an own input or output is resolved, the types of all
ports are declared, and those of all signals just if each class of an input or output of a part shares its
type with a class of an own one. -/
theorem declares_types_iff (hres : ∀ u, u ∈ (g.context a).inputs ∨ u ∈ (g.context a).outputs →
      g.Resolved relevant u) :
    let d := g.design s relevant (g.context a)
    g.render s relevant a = d.text ∧ (∀ t ∈ d.ports, d.Declares t.type) ∧
      ((∀ t ∈ d.signals, d.Declares t.type) ↔
        ∀ p ∈ g.partsOf a, ∀ u ∈ g.partInputs p ++ g.partOutputs p, ∀ k ∈ g.classesOf u,
          ∃ k' ∈ (g.context a).interfaceClasses, g.typeName s k' = g.typeName s k) := by
  intro d
  have hown : ∀ type, d.Declares type ↔
      ∃ k ∈ (g.context a).interfaceClasses, g.typeName s k = type := by
    intro type
    refine declares_design.trans (exists_congr fun k => and_congr_right fun hk => ?_)
    obtain ⟨u, hu, hku⟩ := mem_interfaceClasses.1 hk
    exact and_iff_left (hres u hu k hku)
  refine ⟨rfl, fun t ht => ?_, ?_⟩
  · obtain ⟨k, hk, htype⟩ := type_of_mem_ports ht
    exact (hown t.type).2 ⟨k, hk, htype.symm⟩
  · constructor
    · intro hall p hp u hu k hk
      obtain ⟨t, ht, htype⟩ : ∃ t ∈ d.signals, t.type = g.typeName s k :=
        exists_signal_iff.2 ⟨p, hp, u, hu, k, hk, rfl⟩
      have hdeclared := hall t ht
      rw [htype] at hdeclared
      exact (hown _).1 hdeclared
    · intro hall t ht
      obtain ⟨p, hp, u, hu, k, hk, htype⟩ := exists_signal_iff.1 ⟨t, ht, rfl⟩
      rw [← htype]
      exact (hown _).2 (hall p hp u hu k hk)

/-! ### A part with an interface of its own -/

open Hyperedge in
/-- `Top` needs a flag and has a part that needs an image. Flags are bits and images are bytes. -/
def hiddenImage : Store where
  edges := vocabularyEdges ++ [
    concept "Top" "Top",
    fact (numbered Vocabulary.isA 6) "IS-A" ["Top"] [Vocabulary.algorithm] Vocabulary.isA,
    concept "Sub" "Sub",
    fact (numbered Vocabulary.isA 7) "IS-A" ["Sub"] [Vocabulary.algorithm] Vocabulary.isA,
    concept "Flag" "Flag",
    fact (numbered Vocabulary.isA 8) "IS-A" ["Flag"] [Vocabulary.input] Vocabulary.isA,
    concept "Bit" "bit",
    fact (numbered Vocabulary.isA 9) "IS-A" ["Bit"] ["Flag", Vocabulary.datatype] Vocabulary.isA,
    concept "Image" "Image",
    fact (numbered Vocabulary.isA 10) "IS-A" ["Image"] [Vocabulary.input] Vocabulary.isA,
    concept "Byte" "byte",
    fact (numbered Vocabulary.isA 11) "IS-A" ["Byte"] ["Image", Vocabulary.datatype] Vocabulary.isA,
    concept "Flag1" "on",
    fact (numbered Vocabulary.instanceOf 1) "INSTANCE-OF" ["Flag1"] ["Flag"] Vocabulary.instanceOf,
    concept "Image1" "in",
    fact (numbered Vocabulary.instanceOf 2) "INSTANCE-OF" ["Image1"] ["Image"] Vocabulary.instanceOf,
    concept "Sub1" "Sub",
    fact (numbered Vocabulary.instanceOf 3) "INSTANCE-OF" ["Sub1"] ["Sub"] Vocabulary.instanceOf,
    fact (numbered Vocabulary.hasAInterface 1) "HAS-A" ["Top"] ["Flag1"] Vocabulary.hasAInterface,
    fact (numbered Vocabulary.needs 1) "NEEDS" ["Top"] ["Flag1"] Vocabulary.needs,
    fact (numbered Vocabulary.hasAInterface 2) "HAS-A" ["Sub1"] ["Image1"] Vocabulary.hasAInterface,
    fact (numbered Vocabulary.needs 2) "NEEDS" ["Sub1"] ["Image1"] Vocabulary.needs,
    fact (numbered Vocabulary.partOfNetwork 1) "PART-OF" ["Sub1"] ["Top"] Vocabulary.partOfNetwork]
  issued _ := 0
  distinct := by decide +kernel
  tidy := by decide +kernel

theorem resolved_hiddenImage : let relevant := hiddenImage.relevantDatatypes .default
    "Top" ∈ hiddenImage.allClasses .algorithm ∧
      (∀ u ∈ ((hiddenImage.context "Top").inputs ∪ (hiddenImage.context "Top").outputs).toList,
        hiddenImage.Resolved relevant u) ∧
      ∀ p ∈ (hiddenImage.partsOf "Top").toList,
        ∀ u ∈ hiddenImage.partInputs p ++ hiddenImage.partOutputs p, hiddenImage.Resolved relevant u := by
  decide +kernel

theorem declares_types_hiddenImage : let relevant := hiddenImage.relevantDatatypes .default
    let d := hiddenImage.design .default relevant (hiddenImage.context "Top")
    (∀ u, u ∈ (hiddenImage.context "Top").inputs ∨ u ∈ (hiddenImage.context "Top").outputs →
        hiddenImage.Resolved relevant u) ∧
      ⟨"input_on", "Flag_type"⟩ ∈ d.ports ∧ d.Declares "Flag_type" := by
  intro relevant d
  have hres : ∀ u, u ∈ (hiddenImage.context "Top").inputs ∨ u ∈ (hiddenImage.context "Top").outputs →
      hiddenImage.Resolved relevant u := fun u hu =>
    resolved_hiddenImage.2.1 u (UidSet.mem_toList.2 (UidSet.mem_union.2 hu))
  have hport : ⟨"input_on", "Flag_type"⟩ ∈ d.ports := by decide +kernel
  obtain ⟨-, hports, -⟩ := declares_types_iff (s := .default) hres
  exact ⟨hres, hport, hports _ hport⟩

/-- All classes are resolved, and yet the signal of the part has a type that is not declared. -/
theorem undeclared_hiddenImage : let relevant := hiddenImage.relevantDatatypes .default
    let d := hiddenImage.design .default relevant (hiddenImage.context "Top")
    "Top" ∈ hiddenImage.allClasses .algorithm ∧
      (∀ u, u ∈ (hiddenImage.context "Top").inputs ∨ u ∈ (hiddenImage.context "Top").outputs →
        hiddenImage.Resolved relevant u) ∧
      (∀ p ∈ hiddenImage.partsOf "Top", ∀ u ∈ hiddenImage.partInputs p ++ hiddenImage.partOutputs p,
        hiddenImage.Resolved relevant u) ∧
      ⟨"component_Sub1_input_in", "Image_type"⟩ ∈ d.signals ∧ ¬ d.Declares "Image_type" := by
  intro relevant d
  obtain ⟨halg, hown, hparts⟩ := resolved_hiddenImage
  have hsignal : ⟨"component_Sub1_input_in", "Image_type"⟩ ∈ d.signals ∧ ¬ d.Declares "Image_type" := by
    decide +kernel
  exact ⟨halg, fun u hu => hown u (UidSet.mem_toList.2 (UidSet.mem_union.2 hu)), hparts, hsignal⟩

end Store

end DesignGraph
