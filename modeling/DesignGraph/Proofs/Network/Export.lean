import DesignGraph.Proofs.Model.Typing
import DesignGraph.Proofs.Relation.FactSet

/-! # What networks export

A network exports interfaces of its parts (`Store.Offers`). `exportInterfaces` sifts the interfaces by what
any of the given uids offers, the networks by what is a network, and asserts one fact between what is left
(`Store.exportInterfaces_eq`). The given uids that are no networks are dropped from the fact, but not from
what its interfaces are sifted by.

* `Ontology.exports_offered_iff`: what is exported, and when each interface is that of a part of a network of
  the fact. -/

namespace DesignGraph

open Store

namespace Store

variable {g h : Store} {r n u v t : Uid} {s : UidSet} {d : Direction}

/-! ### Parts and their interfaces, one uid at a time -/

theorem mem_related_exists : v ∈ g.related r s "" d ↔ ∃ u ∈ s, v ∈ g.related r (.single u) "" d := by
  simp only [mem_related, UidSet.mem_single, exists_eq_left]
  constructor
  · rintro ⟨hv, k, hk, u, hu, hl⟩
    exact ⟨u, hu, hv, k, hk, hl⟩
  · rintro ⟨u, hu, hv, k, hk, hl⟩
    exact ⟨hv, k, hk, u, hu, hl⟩

theorem mem_children_exists : v ∈ g.children s "" d ↔ ∃ u ∈ s, v ∈ g.children (.single u) "" d := by
  simp only [children, UidSet.mem_union]
  rw [mem_related_exists, mem_related_exists (s := s), ← exists_or]
  simp only [and_or_left]

theorem mem_componentsOf_exists :
    v ∈ g.componentsOf s "" .forward ↔ ∃ u ∈ s, v ∈ g.componentsOf (.single u) "" .forward := by
  simp only [componentsOf, UidSet.mem_inter]
  rw [mem_children_exists]
  simp only [← and_assoc, exists_and_right]

theorem mem_interfacesOf_exists :
    v ∈ g.interfacesOf s "" .forward ↔ ∃ u ∈ s, v ∈ g.interfacesOf (.single u) "" .forward := by
  simp only [interfacesOf, UidSet.mem_inter]
  rw [mem_children_exists]
  simp only [← and_assoc, exists_and_right]

/-- The interface is owned by a part of `n` that is a component. -/
def Offers (g : Store) (n t : Uid) : Prop :=
  ∃ p ∈ g.componentsOf (.single n) "" .forward, t ∈ g.interfacesOf (.single p) "" .forward

theorem mem_interfacesOf_componentsOf :
    t ∈ g.interfacesOf (g.componentsOf s "" .forward) "" .forward ↔ ∃ n ∈ s, g.Offers n t := by
  rw [mem_interfacesOf_exists]
  constructor
  · rintro ⟨p, hp, ht⟩
    obtain ⟨n, hn, hp⟩ := mem_componentsOf_exists.1 hp
    exact ⟨n, hn, p, hp, ht⟩
  · rintro ⟨n, hn, p, hp, ht⟩
    exact ⟨p, mem_componentsOf_exists.2 ⟨n, hn, hp⟩, ht⟩

/-! ### The fact of an assertion -/

theorem relateFrom_of_none {S T : UidSet} (hf : (g.relateFrom r S T).1 = none) :
    (g.relateFrom r S T).2 = g := by
  rcases relateFrom_cases g r S T with ⟨h, -⟩ | ⟨-, -, -, ⟨u, h, -⟩ | ⟨k, u, g', h, -⟩⟩
  · rw [h]
  all_goals
    rw [h] at hf
    cases hf

/-- The fact of an assertion that gives its uid. -/
theorem exists_fact_relateFrom {S T : UidSet} {f : Uid} (hne : r ≠ "")
    (hf : (g.relateFrom r S T).1 = some f) :
    ∃ e ∈ (g.relateFrom r S T).2.edges, e.uid = f ∧ e.IsFactOf r S.toList T.toList := by
  rcases relateFrom_cases g r S T with ⟨h, -⟩ | ⟨hS, hT, hr, -⟩
  · rw [h] at hf
    cases hf
  · obtain ⟨before, e, after, hedges, hs, -, hu⟩ :=
      findFact?_eq_some_iff.1 (findFact?_relateFrom hr hS hT hne hf)
    refine ⟨e, by rw [hedges]; simp, hu, (Hyperedge.states_iff hne).1 ?_⟩
    rwa [S.ofList_toList, T.ofList_toList]

/-! ### What exporting asserts -/

/-- The given uids that are networks. -/
def exporters (g : Store) (networks : UidSet) : UidSet := networks ∩ (Side.network g).valid

/-- The given interfaces that any of the given uids offers. -/
def exported (g : Store) (networks : UidSet) (interfaces : List Uid) : UidSet :=
  .ofList (interfaces.filter fun t => t ∈ g.interfacesOf (g.componentsOf networks "" .forward) "" .forward)

variable {networks : UidSet} {interfaces : List Uid}

theorem mem_exported :
    t ∈ g.exported networks interfaces ↔ t ∈ interfaces ∧ ∃ n ∈ networks, g.Offers n t := by
  simp only [exported, UidSet.mem_ofList, List.mem_filter, decide_eq_true_eq, mem_interfacesOf_componentsOf]

/-- Sifting by what holds of all of them keeps all members of a set. -/
theorem sift_toList {relation : Uid} {role : Role} {valid : UidSet} {expected : String}
    (hs : ∀ u ∈ s, u ∈ valid) : (g.sift relation role valid expected s.toList).1 = s :=
  UidSet.ext fun u => mem_sift.trans (and_iff_left_of_imp (hs u))

/-- **Exporting asserts one fact**, from the networks to the interfaces on offer. As networks are components
and only interfaces are on offer, nothing more is dropped when the fact is asserted. -/
theorem exportInterfaces_eq (hroot : ClassRoot.network.uid ∈ g.allClasses .component) (networks : UidSet)
    (interfaces : List Uid) :
    let outcome := g.exportInterfaces networks interfaces
    (outcome.result, outcome.store) =
      g.relateFrom Vocabulary.hasAInterface (g.exporters networks) (g.exported networks interfaces) := by
  intro outcome
  have hT : (g.sift Vocabulary.hasAInterface .target
      (g.interfacesOf (g.componentsOf networks "" .forward) "" .forward) "interface of a part"
      interfaces).1 = g.exported networks interfaces := rfl
  have hS : (g.sift Vocabulary.hasAInterface .source (Side.network g).valid (Side.network g).expected
      networks.toList).1 = g.exporters networks :=
    UidSet.ext fun u => mem_sift.trans UidSet.mem_inter.symm
  simp only [outcome, exportInterfaces, hS, hT]
  split
  · rename_i hempty
    rw [relateFrom, if_pos (by rwa [Bool.or_comm])]
  · have hcomponents : ∀ u ∈ g.exporters networks, u ∈ (Side.component g).valid := fun u hu => by
      rcases UidSet.mem_union.1 (UidSet.mem_inter.1 hu).2 with hu | hu
      · exact UidSet.mem_union.2 (.inr (allMembers_subset hroot hu))
      · exact UidSet.mem_union.2 (.inl (allClasses_subset hroot hu))
    have hinterfaces : ∀ t ∈ g.exported networks interfaces, t ∈ (Side.interfaceInstance g).valid := fun t ht => by
      obtain ⟨-, n, -, p, -, ht⟩ := mem_exported.1 ht
      exact (UidSet.mem_inter.1 ht).2
    simp only [Outcome.after, hasInterface, assertBetween, sift_toList hcomponents, sift_toList hinterfaces]

end Store

/-- The fact joins the given networks to the given interfaces that any of the given uids offers. -/
structure Hyperedge.Exports (g : Store) (networks : UidSet) (interfaces : List Uid) (e : Hyperedge) : Prop where
  kind : e.kind = .fact
  relation : e.relation = some Vocabulary.hasAInterface
  sources : ∀ n, n ∈ e.sources ↔ n ∈ networks ∧ n ∈ (Side.network g).valid
  targets : ∀ t, t ∈ e.targets ↔ t ∈ interfaces ∧ ∃ c ∈ networks, g.Offers c t

namespace Ontology

/-- A model of components and networks, however it was built, has the networks among its components, and
owning interfaces among its relation kinds. -/
theorem knows_networks {level : Level} (hl : level = .components ∨ level = .algorithms)
    (history : List Action) :
    let g := ((ofStore level .empty).since history).store
    ClassRoot.network.uid ∈ g.allClasses .component ∧ g.Declares Vocabulary.hasAInterface := by
  intro g
  have hgrown : Extends (level.copy .empty) g := (edits_since (ofStore level .empty) history).extends_
  have hmore : Extends (Level.components.copy .empty) (level.copy .empty) := by
    rcases hl with rfl | rfl
    · exact Grows.refl ..
    · have hsplit : Level.algorithms.copy .empty =
          Level.algorithmDeclarations.foldl Declaration.declare (Level.components.copy .empty) :=
        List.foldl_append ..
      rw [hsplit]
      exact Declaration.extends_foldl_declare _ _
  have hstart : ClassRoot.network.uid ∈ (Level.components.copy .empty).allClasses .component ∧
      ∃ e ∈ (Level.components.copy .empty).edges, e.uid = Vocabulary.hasAInterface ∧ e.kind = .relation := by
    decide +kernel
  have hextends := hmore.trans hgrown
  exact ⟨allClasses_mono hextends hstart.1, hextends.declares hstart.2⟩

/-- **What networks export.** In a model of components and networks that was empty when it was opened and has
any history, exporting answers with the stored fact from just the given networks to just the given interfaces
that some given uid offers, be it a network or not; without any such network or interface it answers nothing
and leaves the store as it is. So each interface is that of a part of a network of the fact if and only if what
the given uids that are no networks offer is also on offer by those that are. -/
theorem exports_offered_iff {level : Level} (hl : level = .components ∨ level = .algorithms)
    (history : List Action) (networks : UidSet) (interfaces : List Uid) :
    let o := (ofStore level .empty).since history
    let called := o.perform (.exportInterfaces networks interfaces) trivial
    (called.1 = .uid none ∧ called.2.store = o.store ∧
        ((∀ n ∈ networks, n ∉ (Side.network o.store).valid) ∨
          ∀ t ∈ interfaces, ∀ c ∈ networks, ¬ o.store.Offers c t)) ∨
      ∃ e ∈ called.2.store.edges, called.1 = .uid (some e.uid) ∧ e.Exports o.store networks interfaces ∧
        ((∀ t ∈ e.targets, ∃ n ∈ e.sources, o.store.Offers n t) ↔
          ∀ c ∈ networks, c ∉ e.sources → ∀ t ∈ interfaces, o.store.Offers c t →
            ∃ n ∈ e.sources, o.store.Offers n t) := by
  intro o called
  obtain ⟨hroot, hdeclared⟩ := knows_networks hl history
  have heq := exportInterfaces_eq hroot networks interfaces
  let asserted := o.store.relateFrom Vocabulary.hasAInterface (o.store.exporters networks)
    (o.store.exported networks interfaces)
  have hresult : called.1 = .uid asserted.1 := congrArg Answer.uid (congrArg Prod.fst heq)
  have hstore : called.2.store = asserted.2 := congrArg Prod.snd heq
  cases hf : asserted.1 with
  | none =>
    refine .inl ⟨hresult.trans (congrArg _ hf), hstore.trans (relateFrom_of_none hf), ?_⟩
    by_contra hgiven
    push Not at hgiven
    obtain ⟨⟨n, hn, hvalid⟩, t, ht, c, hc, hoffers⟩ := hgiven
    obtain ⟨f, hsome⟩ := relateFrom_isSome hdeclared
      (UidSet.isEmpty_eq_false_iff.2 ⟨n, UidSet.mem_inter.2 ⟨hn, hvalid⟩⟩)
      (UidSet.isEmpty_eq_false_iff.2 ⟨t, mem_exported.2 ⟨ht, c, hc, hoffers⟩⟩)
    exact Option.some_ne_none f (hsome.symm.trans hf)
  | some f =>
    obtain ⟨e, he, hu, hk, hr, hS, hT⟩ := exists_fact_relateFrom (by decide) hf
    have hexports : e.Exports o.store networks interfaces :=
      ⟨hk, hr, fun n => (hS n).trans UidSet.mem_inter, fun t => (hT t).trans mem_exported⟩
    refine .inr ⟨e, by rwa [hstore], by rw [hresult, hf, hu], hexports, fun hall c hc _ t ht hoffers => ?_,
      fun hall t ht => ?_⟩
    · exact hall t ((hexports.targets t).2 ⟨ht, c, hc, hoffers⟩)
    · obtain ⟨ht, c, hc, hoffers⟩ := (hexports.targets t).1 ht
      by_cases hsource : c ∈ e.sources
      · exact ⟨c, hsource, hoffers⟩
      · exact hall c hc hsource t ht hoffers

/-- A rig is a network without parts; a sensor is none, but has a part: a port that is a sensor too and has a
port of its own. -/
def rigHistory : List Action := [
  .change (.createClass .component "Sensor" "Sensor" ∅) trivial,
  .change (.createClass .softwareInterface "Port" "Port" ∅) trivial,
  .change (.createClass .network "Rig" "Rig" ∅) trivial,
  .change (.instantiate (.ofList ["Sensor", "Port"]) "") trivial,
  .change (.hasInterface ["Sensor"] ["Port1"]) trivial,
  .change (.instantiate (.single "Port") "in") trivial,
  .change (.hasInterface ["Port1"] ["Port2"]) trivial]

def rig : Ontology := (ofStore .algorithms .empty).since rigHistory

/-- The port that the sensor offers is exported by the network, which has no part before or after. -/
theorem export_rig :
    let called := rig.perform (.exportInterfaces (.ofList ["Rig", "Sensor"]) ["Port2"]) trivial
    called.2.store.edges = rig.store.edges ++ [.fact (numbered Vocabulary.hasAInterface 3) "HAS-A"
        ["Rig"] ["Port2"] Vocabulary.hasAInterface] ∧
      rig.store.componentsOf (.single "Rig") "" .forward = ∅ ∧
      called.2.store.componentsOf (.single "Rig") "" .forward = ∅ := by
  decide +kernel

theorem exports_offered_iff_rig :
    let called := rig.perform (.exportInterfaces (.ofList ["Rig", "Sensor"]) ["Port2"]) trivial
    called.2.store.edges = rig.store.edges ++ [.fact (numbered Vocabulary.hasAInterface 3) "HAS-A"
        ["Rig"] ["Port2"] Vocabulary.hasAInterface] ∧
      ((called.1 = .uid none ∧ called.2.store = rig.store ∧
          ((∀ n ∈ UidSet.ofList ["Rig", "Sensor"], n ∉ (Side.network rig.store).valid) ∨
            ∀ t ∈ ["Port2"], ∀ c ∈ UidSet.ofList ["Rig", "Sensor"], ¬ rig.store.Offers c t)) ∨
        ∃ e ∈ called.2.store.edges, called.1 = .uid (some e.uid) ∧
          e.Exports rig.store (.ofList ["Rig", "Sensor"]) ["Port2"] ∧
          ((∀ t ∈ e.targets, ∃ n ∈ e.sources, rig.store.Offers n t) ↔
            ∀ c ∈ UidSet.ofList ["Rig", "Sensor"], c ∉ e.sources → ∀ t ∈ ["Port2"], rig.store.Offers c t →
              ∃ n ∈ e.sources, rig.store.Offers n t)) := by
  refine ⟨export_rig.1, ?_⟩
  unfold rig
  exact exports_offered_iff (.inr rfl) rigHistory (.ofList ["Rig", "Sensor"]) ["Port2"]

/-- So a network may export an interface that no part of it has. -/
theorem not_offered_rig :
    let called := rig.perform (.exportInterfaces (.ofList ["Rig", "Sensor"]) ["Port2"]) trivial
    called.2.store.edges = rig.store.edges ++ [.fact (numbered Vocabulary.hasAInterface 3) "HAS-A"
        ["Rig"] ["Port2"] Vocabulary.hasAInterface] ∧
      ¬ rig.store.Offers "Rig" "Port2" ∧ ¬ called.2.store.Offers "Rig" "Port2" := by
  obtain ⟨hedges, hbefore, hafter⟩ := export_rig
  refine ⟨hedges, ?_, ?_⟩
  · rintro ⟨p, hp, -⟩
    rw [hbefore] at hp
    exact UidSet.not_mem_empty p hp
  · rintro ⟨p, hp, -⟩
    rw [hafter] at hp
    exact UidSet.not_mem_empty p hp

end Ontology

end DesignGraph
