import DesignGraph.Proofs.Instance.Copy
import DesignGraph.Proofs.Model.Operation

/-! # Regular models

A model is `Regular` if it holds the vocabulary, its facts are of declared kinds, have sources and targets
and lead to known uids, and the hierarchy of relation kinds is that of the vocabulary. An operation keeps
this if all facts it adds are sound in the store it leaves (`Regular.adds`). In a regular model it is
known once and for all which kinds lie below owning, below being a part and below connecting. -/

namespace DesignGraph

open Relation

/-! ### The vocabulary as it is stored -/

open Hyperedge Vocabulary in
/-- All that a model without content holds, in the order in which it is declared. -/
def vocabularyEdges : List Hyperedge := [
  ⟨isA, "IS-A", .relation, [], [], none⟩,
  ⟨instanceOf, "INSTANCE-OF", .relation, [], [], none⟩,
  ⟨hasA, "HAS-A", .relation, [], [], none⟩,
  ⟨partOf, "PART-OF", .relation, [], [], none⟩,
  ⟨connects, "CONNECTS", .relation, [], [], none⟩,
  ⟨subrelationOf, "SUBRELATION-OF", .relation, [], [], none⟩,
  concept component "COMPONENT",
  concept interface "INTERFACE",
  concept network "NETWORK",
  ⟨hasAInterface, "HAS-A", .relation, [component, network], [interface], none⟩,
  fact (Store.numbered subrelationOf 1) "SUBRELATION-OF" [hasAInterface] [hasA] subrelationOf,
  ⟨connectedTo, "CONNECTED-TO", .relation, [interface], [interface], none⟩,
  fact (Store.numbered subrelationOf 2) "SUBRELATION-OF" [connectedTo] [connects] subrelationOf,
  ⟨partOfNetwork, "PART-OF", .relation, [component], [network], none⟩,
  fact (Store.numbered subrelationOf 3) "SUBRELATION-OF" [partOfNetwork] [partOf] subrelationOf,
  fact (Store.numbered isA 1) "IS-A" [network] [component] isA,
  concept algorithm "ALGORITHM",
  concept softwareInterface "INTERFACE",
  concept input "INPUT",
  concept output "OUTPUT",
  concept implementation "IMPLEMENTATION",
  concept datatype "DATATYPE",
  fact (Store.numbered isA 2) "IS-A" [algorithm] [network] isA,
  fact (Store.numbered isA 3) "IS-A" [softwareInterface] [interface] isA,
  fact (Store.numbered isA 4) "IS-A" [input] [softwareInterface] isA,
  fact (Store.numbered isA 5) "IS-A" [output] [softwareInterface] isA,
  ⟨needs, "NEEDS", .relation, [algorithm], [input], none⟩,
  fact (Store.numbered subrelationOf 4) "SUBRELATION-OF" [needs] [hasAInterface] subrelationOf,
  ⟨provides, "PROVIDES", .relation, [algorithm], [output], none⟩,
  fact (Store.numbered subrelationOf 5) "SUBRELATION-OF" [provides] [hasAInterface] subrelationOf,
  ⟨dependsOn, "DEPENDS-ON", .relation, [input], [output], none⟩,
  fact (Store.numbered subrelationOf 6) "SUBRELATION-OF" [dependsOn] [connects] subrelationOf]

namespace Store

theorem edges_blank : blank.edges = vocabularyEdges := by decide +kernel

/-- The vocabulary as a store. -/
def vocabulary : Store :=
  ⟨vocabularyEdges, fun _ => 0, edges_blank ▸ blank.distinct, edges_blank ▸ blank.tidy⟩

/-- A fact of a declared kind with known sources and known targets. -/
structure Sound (g : Store) (r : Uid) (S T : List Uid) : Prop where
  declared : g.Declares r
  source : S ≠ [] ∧ ∀ u ∈ S, u ∈ g
  target : T ≠ [] ∧ ∀ u ∈ T, u ∈ g

variable {g h : Store} {r : Uid} {S T : List Uid}

theorem Sound.mono (hgh : Extends g h) (hs : g.Sound r S T) : h.Sound r S T :=
  ⟨hgh.declares hs.declared, ⟨hs.source.1, fun u hu => hgh.mem (hs.source.2 u hu)⟩,
    ⟨hs.target.1, fun u hu => hgh.mem (hs.target.2 u hu)⟩⟩

/-- The model holds the vocabulary and its hierarchy of relation kinds, and its facts are sound. -/
structure Regular (g : Store) : Prop where
  contains : Extends vocabulary g
  sound : ∀ r S T, g.Asserts r S T → g.Sound r S T
  hierarchy : ∀ S T, g.Asserts Vocabulary.subrelationOf S T →
    vocabulary.Asserts Vocabulary.subrelationOf S T

/-- What a regular model may be extended by: sound facts that leave the hierarchy of kinds alone. -/
def Admissible (g : Store) (r : Uid) (S T : List Uid) : Prop :=
  g.Sound r S T ∧ r ≠ Vocabulary.subrelationOf

theorem Regular.adds (hg : Regular g) (hgh : Adds h.Admissible g h) : Regular h where
  contains := hg.contains.trans hgh.extends
  sound r S T hf := by
    rcases hgh.asserts_or hf with hf | hf
    · exact (hg.sound r S T hf).mono hgh.extends
    · exact hf.1
  hierarchy S T hf := by
    rcases hgh.asserts_or hf with hf | hf
    · exact hg.hierarchy S T hf
    · exact absurd rfl hf.2

theorem Regular.closed (hg : Regular g) : g.Closed := fun r S T hf =>
  ⟨(hg.sound r S T hf).source.2, (hg.sound r S T hf).target.2⟩

/-! ### What regular models agree on -/

theorem extends_blank : Extends vocabulary blank := by
  refine ⟨[], ?_, by simp⟩
  rw [edges_blank, List.append_nil]
  rfl

/-- The facts of a model without content. -/
theorem asserts_blank (hf : blank.Asserts r S T) :
    ∃ e, (r, e) ∈ vocabulary.facts ∧ e.sources = S ∧ e.targets = T := by
  obtain ⟨e, he, ha, hS, hT⟩ := hf
  rw [edges_blank] at he
  exact ⟨e, mem_facts.2 ⟨he, ha⟩, hS, hT⟩

theorem regular_blank : Regular blank := by
  have hall : ∀ f ∈ vocabulary.facts, (∃ e ∈ vocabulary.edges, e.uid = f.1 ∧ e.kind = .relation) ∧
      (f.2.sources ≠ [] ∧ ∀ u ∈ f.2.sources, u ∈ vocabulary) ∧
      f.2.targets ≠ [] ∧ ∀ u ∈ f.2.targets, u ∈ vocabulary := by decide +kernel
  refine ⟨extends_blank, fun r S T hf => ?_, fun S T hf => ?_⟩
  · obtain ⟨e, he, rfl, rfl⟩ := asserts_blank hf
    obtain ⟨hd, hS, hT⟩ := hall (r, e) he
    exact Sound.mono extends_blank ⟨hd, hS, hT⟩
  · obtain ⟨e, he, hS, hT⟩ := asserts_blank hf
    obtain ⟨he, ha⟩ := mem_facts.1 he
    exact ⟨e, he, ha, hS, hT⟩

theorem Regular.declares (hg : Regular g) (hr : r ∈ [Vocabulary.isA, Vocabulary.instanceOf,
    Vocabulary.hasA, Vocabulary.partOf, Vocabulary.connects, Vocabulary.hasAInterface,
    Vocabulary.connectedTo, Vocabulary.partOfNetwork, Vocabulary.needs, Vocabulary.provides,
    Vocabulary.dependsOn]) : g.Declares r := by
  have hall : ∀ r ∈ [Vocabulary.isA, Vocabulary.instanceOf, Vocabulary.hasA, Vocabulary.partOf,
      Vocabulary.connects, Vocabulary.hasAInterface, Vocabulary.connectedTo, Vocabulary.partOfNetwork,
      Vocabulary.needs, Vocabulary.provides, Vocabulary.dependsOn],
      ∃ e ∈ vocabulary.edges, e.uid = r ∧ e.kind = .relation := by decide +kernel
  exact hg.contains.declares (hall r hr)

theorem Regular.root_mem (hg : Regular g) (root : ClassRoot) : root.uid ∈ g := by
  refine hg.contains.mem ?_
  cases root <;> decide

/-- The roots that facts of the vocabulary place directly below others. -/
def rootSteps : List (ClassRoot × ClassRoot) :=
  [(.network, .component), (.algorithm, .network), (.softwareInterface, .interface),
    (.input, .softwareInterface), (.output, .softwareInterface)]

/-- A step down from one root to another. -/
theorem Regular.leads_root (hg : Regular g) (root root' : ClassRoot) (hr : (root, root') ∈ rootSteps) :
    g.Leads Vocabulary.isA .inverse root'.uid root.uid := by
  have hall : ∀ p ∈ rootSteps, vocabulary.Asserts Vocabulary.isA [p.1.uid] [p.2.uid] := by decide +kernel
  exact ⟨_, _, hg.contains.asserts (hall _ hr), List.mem_singleton_self _, List.mem_singleton_self _⟩

/-- The kinds below kinds of the vocabulary are those of the vocabulary. -/
theorem Regular.subrelations_eq (hg : Regular g) {k : Uid} (hk : k ∈ vocabulary) :
    g.subrelations (.single k) = vocabulary.subrelations (.single k) := by
  refine UidSet.ext fun v => ⟨fun hv => ?_, closure_mono hg.contains fun _ hu => hu⟩
  obtain ⟨-, hc⟩ := mem_subrelations_single.1 hv
  refine mem_subrelations_single.2 ⟨hk, hc.lift id fun a b hl => ?_⟩
  obtain ⟨S, T, hf, hd⟩ := hl
  exact ⟨S, T, hg.hierarchy S T hf, hd⟩

/-- The kinds of owning. -/
def owningKinds : UidSet :=
  .ofList [Vocabulary.hasA, Vocabulary.hasAInterface, Vocabulary.needs, Vocabulary.provides]

/-- The kinds of being a part. -/
def containingKinds : UidSet := .ofList [Vocabulary.partOf, Vocabulary.partOfNetwork]

/-- The kinds of being connected. -/
def connectingKinds : UidSet :=
  .ofList [Vocabulary.connects, Vocabulary.connectedTo, Vocabulary.dependsOn]

theorem subrelations_vocabulary :
    vocabulary.subrelations (.single Vocabulary.hasA) = owningKinds ∧
      vocabulary.subrelations (.single Vocabulary.partOf) = containingKinds ∧
      vocabulary.subrelations (.single Vocabulary.connects) = connectingKinds ∧
      vocabulary.subrelations (.single Vocabulary.instanceOf) = .single Vocabulary.instanceOf := by
  decide +kernel

theorem Regular.owning_eq (hg : Regular g) : g.subrelations (.single Vocabulary.hasA) = owningKinds := by
  rw [hg.subrelations_eq (by decide)]
  exact subrelations_vocabulary.1

theorem Regular.containing_eq (hg : Regular g) :
    g.subrelations (.single Vocabulary.partOf) = containingKinds := by
  rw [hg.subrelations_eq (by decide)]
  exact subrelations_vocabulary.2.1

theorem Regular.connecting_eq (hg : Regular g) :
    g.subrelations (.single Vocabulary.connects) = connectingKinds := by
  rw [hg.subrelations_eq (by decide)]
  exact subrelations_vocabulary.2.2.1

theorem Regular.realizing_eq (hg : Regular g) :
    g.subrelations (.single Vocabulary.instanceOf) = .single Vocabulary.instanceOf := by
  rw [hg.subrelations_eq (by decide)]
  exact subrelations_vocabulary.2.2.2

/-! ### Deep copies of a regular model -/

open Copying

/-- In a regular model any set of classes can be copied. -/
theorem Regular.instantiateDeep_ok (hg : Regular g) (classes : UidSet) :
    ∃ tops h, g.instantiateDeep classes = (.ok (.ofList tops), h) ∧
      CopiedInTurn owningKinds containingKinds g classes.toList tops h := by
  have hok := Store.instantiateDeep_ok hg.closed (hg.declares (by decide)).mem
    (hg.declares (by decide)).mem (by rw [hg.containing_eq]; decide) classes
  rwa [hg.owning_eq, hg.containing_eq] at hok

theorem kind_of_structure (hr : r ∈ owningKinds ∨ r ∈ containingKinds) :
    r ≠ Vocabulary.subrelationOf ∧ r ≠ Vocabulary.instanceOf ∧ r ∉ connectingKinds := by
  have hall : ∀ r ∈ owningKinds.toList ++ containingKinds.toList, r ≠ Vocabulary.subrelationOf ∧
      r ≠ Vocabulary.instanceOf ∧ r ∉ connectingKinds := by decide +kernel
  exact hall r (List.mem_append.2 hr)

theorem kind_of_connection (hr : r ∈ connectingKinds) :
    r ≠ Vocabulary.subrelationOf ∧ r ≠ Vocabulary.instanceOf := by
  have hall : ∀ r ∈ connectingKinds.toList, r ≠ Vocabulary.subrelationOf ∧ r ≠ Vocabulary.instanceOf := by
    decide
  exact hall r hr

theorem Regular.copied (hg : Regular g) {top : Uid} (ht : top ∈ g) {copy : Uid → Uid}
    (hc : Copied g owningKinds containingKinds top copy h) : Regular h := by
  refine hg.adds (hc.adds.mono fun r S T hf => ?_)
  have hext := hc.adds.extends
  cases hf with
  | @realizes k hk =>
    refine ⟨⟨hext.declares (hg.declares (by decide)), ⟨by simp, by simpa using (hc.fresh k hk).2⟩, ?_,
      ?_⟩, by decide⟩
    · exact fun h => realized_nonempty g top k (List.isEmpty_iff.2 h)
    · exact fun u hu => hext.mem (known_of_mem_realized (hg.closed.within ht hk) hu)
  | @holds r o k ho hk hr hl =>
    obtain ⟨S, T, hf, -⟩ := hl
    exact ⟨⟨hext.declares (hg.sound r S T hf).declared, ⟨by simp, by simpa using (hc.fresh o ho).2⟩,
      by simp, by simpa using (hc.fresh k hk).2⟩, (kind_of_structure hr).1⟩
  | @connects r S T hf hne hr hS hT =>
    rw [hg.connecting_eq] at hr
    refine ⟨⟨hext.declares (hg.sound r S T hf).declared,
      ⟨fun h => ?_, fun u hu => (hc.of_mem_image hS hu).2⟩,
      fun h => ?_, fun u hu => (hc.of_mem_image hT hu).2⟩, (kind_of_connection hr).1⟩
    · exact not_isEmpty_ofList (by simpa using hne.1) (List.isEmpty_iff.2 h)
    · exact not_isEmpty_ofList (by simpa using hne.2) (List.isEmpty_iff.2 h)

theorem Regular.copiedInTurn {classes tops : List Uid} (hg : Regular g)
    (hc : CopiedInTurn owningKinds containingKinds g classes tops h) : Regular h := by
  induction hc with
  | nil => exact hg
  | unknown _ _ ih => exact ih hg
  | copied hu hc _ ih => exact ih (hg.copied hu hc)

end Store

end DesignGraph
