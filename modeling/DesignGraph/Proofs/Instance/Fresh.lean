import DesignGraph.Proofs.Instance.Apart
import DesignGraph.Proofs.Model.Monotone

/-! # A new instance starts with its classes

The uid of a new instance is that of nothing stored. If no fact speaks of it either, then all that is asserted
of the instance is what it realizes (`Store.MadeInstance.leads_iff`), so a query that follows a relation kind
from it finds its classes or nothing (`Ontology.mem_related_instantiate`): its classes if realizing a class is
a kind below the one that is followed, and then only forwards.

* `Ontology.instantiate_apart_iff`: when the classes of a new instance are those it was made of, and when it
  owns, contains and connects nothing. -/

namespace DesignGraph

open Store

namespace Store

variable {P : Uid → List Uid → List Uid → Prop} {g h : Store} {d : Direction} {r k u v : Uid} {classes : UidSet}
  {label : String}

/-- The relation kinds by which things are owned, contained and connected. -/
def structuralKinds : List Uid := [Vocabulary.hasA, Vocabulary.partOf, Vocabulary.connects]

/-- No fact speaks of the uid. -/
def Unmentioned (g : Store) (u : Uid) : Prop :=
  ∀ e ∈ g.edges, e.kind = .fact → u ∉ e.sources ∧ u ∉ e.targets

theorem Unmentioned.not_leads (hu : g.Unmentioned u) : ¬ g.Leads r d u v := by
  rintro ⟨S, T, ⟨e, he, ha, rfl, rfl⟩, hd⟩
  obtain ⟨hS, hT⟩ := hu e he (Hyperedge.asserts?_eq_some.1 ha).1
  cases d with
  | forward => exact hS hd.1
  | inverse => exact hT hd.1
  | both => exact hd.elim (fun h => hS h.1) fun h => hT h.1

/-- Where the hierarchy of relation kinds is left alone, the kinds below a known one are the same. -/
theorem Adds.subrelations_eq (hgh : Adds P g h) (hP : ∀ S T, ¬ P Vocabulary.subrelationOf S T) (hk : k ∈ g) :
    h.subrelations (.single k) = g.subrelations (.single k) := by
  refine UidSet.ext fun v => ?_
  simp only [mem_subrelations_single, hk, hgh.extends.mem hk, true_and]
  exact ⟨fun hc => hc.lift id fun _ _ => (hgh.leads_iff hP).1,
    fun hc => hc.lift id fun _ _ => (hgh.leads_iff hP).2⟩

namespace MadeInstance

variable (hm : MadeInstance g classes label u h)

include hm

/-- **What is asserted of a new instance**: that it realizes its classes, if realizing is a relation kind. -/
theorem leads_iff (hclasses : ∀ c ∈ classes, c ∈ g) (hio : Vocabulary.instanceOf ∈ g) (hu : g.Unmentioned u) :
    h.Leads r d u v ↔
      (r = Vocabulary.instanceOf ∧ g.Declares Vocabulary.instanceOf) ∧ d ≠ .inverse ∧ v ∈ classes := by
  constructor
  · rintro ⟨S, T, hf, hd⟩
    rcases hm.adds.asserts_or hf with hf | ⟨⟨rfl, rfl, rfl⟩, hdeclared⟩
    · exact absurd ⟨S, T, hf, hd⟩ hu.not_leads
    · have hnew : u ∉ classes.toList := fun hmem => hm.fresh (hclasses u hmem)
      refine ⟨⟨rfl, (hm.adds.extends.declares_iff hio).1 hdeclared⟩, ?_⟩
      cases d with
      | forward => exact ⟨by decide, hd.2⟩
      | inverse => exact absurd hd.1 hnew
      | both => exact ⟨by decide, hd.elim (·.2) fun hd => absurd hd.1 hnew⟩
  · rintro ⟨⟨rfl, hdeclared⟩, hd, hv⟩
    obtain ⟨S, T, hf, hS, hT⟩ := hm.joined hdeclared
    have hu' : u ∈ S := (hS u).2 (UidSet.mem_single.2 rfl)
    have hv' : v ∈ T := (hT v).2 hv
    refine ⟨S, T, hf, ?_⟩
    cases d with
    | forward => exact ⟨hu', hv'⟩
    | inverse => exact absurd rfl hd
    | both => exact .inl ⟨hu', hv'⟩

/-- **What a query finds from a new instance**. -/
theorem mem_related_iff (hclasses : ∀ c ∈ classes, c ∈ g) (hio : Vocabulary.instanceOf ∈ g)
    (hu : g.Unmentioned u) (hk : k ∈ g) : v ∈ h.related k (.single u) "" d ↔
      (g.Declares Vocabulary.instanceOf ∧ Vocabulary.instanceOf ∈ g.subrelations (.single k)) ∧
        d ≠ .inverse ∧ v ∈ classes := by
  have hkinds : h.subrelations (.single k) = g.subrelations (.single k) :=
    hm.adds.subrelations_eq (fun S T hP => absurd hP.1.1 (by decide)) hk
  simp only [mem_related, hkinds, UidSet.mem_single, exists_eq_left, hm.leads_iff hclasses hio hu]
  constructor
  · rintro ⟨-, r, hr, ⟨rfl, hdeclared⟩, hd, hv⟩
    exact ⟨⟨hdeclared, hr⟩, hd, hv⟩
  · rintro ⟨⟨hdeclared, hr⟩, hd, hv⟩
    exact ⟨hm.keeps.mem (hclasses v hv), Vocabulary.instanceOf, hr, ⟨rfl, hdeclared⟩, hd, hv⟩

end MadeInstance

theorem exists_instantiate_iff :
    (∃ u, (g.instantiate classes label).1 = some u) ↔ ∃ c ∈ classes, c ∈ g := by
  by_cases hc : (g.known classes).isEmpty
  · refine iff_of_false ?_ ?_
    · rw [instantiate_of_isEmpty hc]
      rintro ⟨u, hu⟩
      cases hu
    · rintro ⟨c, hc', hmem⟩
      exact UidSet.isEmpty_eq_false_iff.2 ⟨c, mem_known.2 ⟨hc', hmem⟩⟩ hc
  · refine iff_of_true ?_ ?_
    · obtain ⟨u, h, heq, -⟩ := exists_madeInstance g classes label hc
      exact ⟨u, by rw [heq]⟩
    · obtain ⟨c, hc⟩ := UidSet.isEmpty_eq_false_iff.1 hc
      exact ⟨c, mem_known.1 hc⟩

/-- An instance that was answered with was made. -/
theorem madeInstance_of_instantiate (hu : (g.instantiate classes label).1 = some u) :
    MadeInstance g (g.known classes) label u (g.instantiate classes label).2 := by
  by_cases hc : (g.known classes).isEmpty
  · rw [instantiate_of_isEmpty hc] at hu
    cases hu
  · obtain ⟨u', h, heq, hm⟩ := exists_madeInstance g classes label hc
    rw [heq] at hu ⊢
    obtain rfl := Option.some.inj hu
    exact hm

end Store

namespace Ontology

variable {level : Level} {u : Uid} {classes : UidSet} {label : String}

theorem generic_mem (hl : level ≠ .plain) (g : Store) :
    Vocabulary.instanceOf ∈ (ofStore level g).store ∧
      ∀ kind ∈ structuralKinds, kind ∈ (ofStore level g).store := by
  have hheld := Level.held_copy hl g
  refine ⟨hheld (.relation Vocabulary.instanceOf [] [] "INSTANCE-OF") (by decide), ?_⟩
  simp only [structuralKinds, List.forall_mem_cons]
  exact ⟨hheld (.relation Vocabulary.hasA [] [] "HAS-A") (by decide),
    hheld (.relation Vocabulary.partOf [] [] "PART-OF") (by decide),
    hheld (.relation Vocabulary.connects [] [] "CONNECTS") (by decide), by simp⟩

/-- What is found from a new instance, whatever is remembered of the kind that is followed. -/
theorem mem_related_instantiate (hl : level ≠ .plain) (g : Store) (history : List Action) {kind v : Uid}
    {d : Direction} (hkind : kind ∈ (ofStore level g).store)
    (hu : (((ofStore level g).since history).store.instantiate classes label).1 = some u)
    (hnew : ((ofStore level g).since history).store.Unmentioned u) :
    let o := (ofStore level g).since history
    let called := o.perform (.instantiate classes label) trivial
    v ∈ (called.2.related (.single u) (.single kind) "" d).1 ↔
      (o.store.Declares Vocabulary.instanceOf ∧
          Vocabulary.instanceOf ∈ o.store.subrelations (.single kind)) ∧
        d ≠ .inverse ∧ v ∈ classes ∧ v ∈ o.store := by
  intro o called
  have hgrown : Extends (ofStore level g).store o.store := (edits_since (ofStore level g) history).extends_
  have hcalled : (ofStore level g).since (history ++ [.change (.instantiate classes label) trivial]) = called.2 :=
    since_append _ history _
  have hfresh := related_known level g (history ++ [.change (.instantiate classes label) trivial]) hkind
    (.single u) "" d
  rw [hcalled] at hfresh
  rw [hfresh, ← mem_known]
  exact (madeInstance_of_instantiate hu).mem_related_iff (fun c hc => (mem_known.1 hc).2)
    (hgrown.mem (generic_mem hl g).1) hnew (hgrown.mem hkind)

/-- **A new instance starts with its classes.** Take any graph that was opened on any edges and has a history.
A call answers with a new instance if and only if it is given a known class. Nothing stored before has the uid of
the instance, so where endpoints are stored uids nothing speaks of it. If no fact does, then right after the call
its classes are just the known ones among those given if and only if realizing a class is a declared relation
kind, and it owns, contains and connects nothing in either direction if and only if that is no declared kind, or
not one below these. -/
theorem instantiate_apart_iff (hl : level ≠ .plain) (g : Store) (history : List Action) (classes : UidSet)
    (label : String) :
    let o := (ofStore level g).since history
    let called := o.perform (.instantiate classes label) trivial
    ((∃ u, called.1 = .uid (some u)) ↔ ∃ c ∈ classes, c ∈ o.store) ∧
    ∀ u, called.1 = .uid (some u) → u ∉ o.store ∧
      ((∀ e ∈ o.store.edges, ∀ v, v ∈ e.sources ∨ v ∈ e.targets → v ∈ o.store) →
        ∀ e ∈ o.store.edges, u ∉ e.sources ∧ u ∉ e.targets) ∧
      (o.store.Unmentioned u →
        ((∀ c, c ∈ (called.2.related (.single u) (.single Vocabulary.instanceOf) "" .forward).1 ↔
            c ∈ classes ∧ c ∈ o.store) ↔ o.store.Declares Vocabulary.instanceOf) ∧
        ((∀ kind ∈ structuralKinds, ∀ d, (called.2.related (.single u) (.single kind) "" d).1 = ∅) ↔
          ¬ o.store.Declares Vocabulary.instanceOf ∨
            ∀ kind ∈ structuralKinds, Vocabulary.instanceOf ∉ o.store.subrelations (.single kind))) := by
  intro o called
  have hanswer : ∀ u, called.1 = .uid (some u) ↔ (o.store.instantiate classes label).1 = some u := fun u =>
    ⟨Answer.uid.inj, congrArg Answer.uid⟩
  refine ⟨(exists_congr hanswer).trans exists_instantiate_iff, fun u hcalled => ?_⟩
  have hu := (hanswer u).1 hcalled
  have hm := madeInstance_of_instantiate hu
  obtain ⟨hio, hkinds⟩ := generic_mem hl g
  refine ⟨hm.fresh, fun hclosed e he => ?_, fun hnew => ⟨?_, ?_⟩⟩
  · exact ⟨fun hs => hm.fresh (hclosed e he u (.inl hs)), fun ht => hm.fresh (hclosed e he u (.inr ht))⟩
  all_goals
    -- the new instance has at least one class
    obtain ⟨c, hc, -⟩ := hm.labelled
    rw [mem_known] at hc
  · have hgrown : Extends (ofStore level g).store o.store := (edits_since (ofStore level g) history).extends_
    have hself : Vocabulary.instanceOf ∈ o.store.subrelations (.single Vocabulary.instanceOf) :=
      mem_subrelations_single.2 ⟨hgrown.mem hio, .refl⟩
    constructor
    · intro hall
      exact ((mem_related_instantiate hl g history hio hu hnew).1 ((hall c).2 hc)).1.1
    · intro hdeclared v
      refine (mem_related_instantiate hl g history hio hu hnew).trans ?_
      exact ⟨fun hv => hv.2.2, fun hv => ⟨⟨hdeclared, hself⟩, by decide, hv⟩⟩
  · constructor
    · intro hnone
      refine or_iff_not_imp_left.2 fun hdeclared kind hkind hbelow => ?_
      have hfound := (mem_related_instantiate (v := c) (d := .forward) hl g history (hkinds kind hkind) hu hnew).2
        ⟨⟨not_not.1 hdeclared, hbelow⟩, by decide, hc⟩
      exact UidSet.not_mem_empty c (hnone kind hkind .forward ▸ hfound)
    · intro hapart kind hkind d
      refine UidSet.ext fun v => iff_of_false (fun hv => ?_) (UidSet.not_mem_empty v)
      obtain ⟨⟨hdeclared, hbelow⟩, -⟩ :=
        (mem_related_instantiate hl g history (hkinds kind hkind) hu hnew).1 hv
      exact hapart.elim (· hdeclared) fun hapart => hapart kind hkind hbelow

/-- A graph with a crate on a shelf. -/
def shelfHistory : List Action := [
  .call (.create "Crate" "Crate"),
  .call (.create "Shelf" "Shelf"),
  .change (.instantiate (.single "Crate") "apples") trivial,
  .change (.instantiate (.single "Shelf") "") trivial,
  .call (.relateFrom Vocabulary.partOf (.single "Crate1") (.single "Shelf1"))]

/-- The graph of the shelf. -/
def shelf : Ontology := (ofStore .concepts .empty).since shelfHistory

/-- Another crate is made beside the one on the shelf. -/
theorem instantiate_apart_iff_shelf :
    let called := shelf.perform (.instantiate (.single "Crate") "pears") trivial
    (Level.concepts ≠ .plain ∧ "Shelf1" ∈ (shelf.related (.single "Crate1") (.single Vocabulary.partOf) "" .forward).1) ∧
      ((∃ u, called.1 = .uid (some u)) ↔ ∃ c ∈ UidSet.single "Crate", c ∈ shelf.store) ∧
      called.1 = .uid (some "Crate2") ∧ "Crate2" ∉ shelf.store ∧
      (∀ e ∈ shelf.store.edges, ∀ v, v ∈ e.sources ∨ v ∈ e.targets → v ∈ shelf.store) ∧
      (∀ e ∈ shelf.store.edges, "Crate2" ∉ e.sources ∧ "Crate2" ∉ e.targets) ∧
      shelf.store.Unmentioned "Crate2" ∧
      ((∀ c, c ∈ (called.2.related (.single "Crate2") (.single Vocabulary.instanceOf) "" .forward).1 ↔
          c ∈ UidSet.single "Crate" ∧ c ∈ shelf.store) ↔ shelf.store.Declares Vocabulary.instanceOf) ∧
      ((∀ kind ∈ structuralKinds, ∀ d,
          (called.2.related (.single "Crate2") (.single kind) "" d).1 = ∅) ↔
        ¬ shelf.store.Declares Vocabulary.instanceOf ∨
          ∀ kind ∈ structuralKinds, Vocabulary.instanceOf ∉ shelf.store.subrelations (.single kind)) := by
  have hfacts : (shelf.store.instantiate (.single "Crate") "pears").1 = some "Crate2" ∧
      "Shelf1" ∈ (shelf.related (.single "Crate1") (.single Vocabulary.partOf) "" .forward).1 ∧
      ∀ e ∈ shelf.store.edges, (∀ v ∈ e.sources ++ e.targets, v ∈ shelf.store) := by decide +kernel
  obtain ⟨hmade, hshelved, hstored⟩ := hfacts
  have hlevel : Level.concepts ≠ .plain := by decide
  have hcalled : (shelf.perform (.instantiate (.single "Crate") "pears") trivial).1 = .uid (some "Crate2") :=
    congrArg Answer.uid hmade
  have hclosed : ∀ e ∈ shelf.store.edges, ∀ v, v ∈ e.sources ∨ v ∈ e.targets → v ∈ shelf.store :=
    fun e he v hv => hstored e he v (List.mem_append.2 hv)
  obtain ⟨hanswers, hall⟩ := instantiate_apart_iff hlevel .empty shelfHistory (.single "Crate") "pears"
  obtain ⟨hfresh, hunmentioned, hclean⟩ := hall "Crate2" hcalled
  have hnew : shelf.store.Unmentioned "Crate2" := fun e he _ => hunmentioned hclosed e he
  exact ⟨⟨hlevel, hshelved⟩, hanswers, hcalled, hfresh, hclosed, hunmentioned hclosed, hnew, hclean hnew⟩

/-- A graph in which whatever realizes a class owns it, and in which a box that is yet to be made owns crates. -/
def crateHistory : List Action := [
  .call (.subrelationOf (.single Vocabulary.instanceOf) (.single Vocabulary.hasA)),
  .call (.create "Crate" "Crate"),
  .call (.create "Box" "Box"),
  .call (.relateFrom Vocabulary.hasA (.single "Box1") (.single "Crate"))]

/-- The graph of the crates. -/
def crates : Ontology := (ofStore .concepts .empty).since crateHistory

/-- A graph of crates that was opened where the uid for realizing was taken by a concept. -/
def unrealized : Ontology :=
  ofStore .concepts (.ofEdges [.concept Vocabulary.instanceOf "", .concept "Crate" "Crate"])

/-- So a new instance may have a child though nothing spoke of it before; a fact may have spoken of it; and it
may be without its class. -/
theorem not_apart_crates :
    let crate := crates.perform (.instantiate (.single "Crate") "") trivial
    let box := crates.perform (.instantiate (.single "Box") "") trivial
    let loose := unrealized.perform (.instantiate (.single "Crate") "") trivial
    (crate.1 = .uid (some "Crate1") ∧
        (∀ e ∈ crates.store.edges, e.uid ≠ "Crate1" ∧ "Crate1" ∉ e.sources ∧ "Crate1" ∉ e.targets) ∧
        "Crate" ∈ (crate.2.related (.single "Crate1") (.single Vocabulary.hasA) "" .forward).1) ∧
      (box.1 = .uid (some "Box1") ∧ ∃ e ∈ crates.store.edges, "Box1" ∈ e.sources) ∧
      (loose.1 = .uid (some "Crate1") ∧ "Crate" ∈ unrealized.store ∧
        "Crate" ∉ (loose.2.related (.single "Crate1") (.single Vocabulary.instanceOf) "" .forward).1) := by
  have hcrate : (crates.store.instantiate (.single "Crate") "").1 = some "Crate1" ∧
      (∀ e ∈ crates.store.edges, e.uid ≠ "Crate1" ∧ "Crate1" ∉ e.sources ∧ "Crate1" ∉ e.targets) ∧
      "Crate" ∈ ((crates.perform (.instantiate (.single "Crate") "") trivial).2.related
        (.single "Crate1") (.single Vocabulary.hasA) "" .forward).1 := by decide +kernel
  have hbox : (crates.store.instantiate (.single "Box") "").1 = some "Box1" ∧
      ∃ e ∈ crates.store.edges, "Box1" ∈ e.sources := by decide +kernel
  have hloose : (unrealized.store.instantiate (.single "Crate") "").1 = some "Crate1" ∧
      "Crate" ∈ unrealized.store ∧
      "Crate" ∉ ((unrealized.perform (.instantiate (.single "Crate") "") trivial).2.related
        (.single "Crate1") (.single Vocabulary.instanceOf) "" .forward).1 := by decide +kernel
  exact ⟨⟨congrArg Answer.uid hcrate.1, hcrate.2⟩, ⟨congrArg Answer.uid hbox.1, hbox.2⟩,
    congrArg Answer.uid hloose.1, hloose.2⟩

end Ontology

end DesignGraph
