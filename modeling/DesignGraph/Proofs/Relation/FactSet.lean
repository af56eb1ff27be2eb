import DesignGraph.Proofs.Relation.Index

/-! # Facts have the semantics of sets

Asserting a fact gives the earliest stored fact with the same kind, the same set of sources and the same
set of targets, or appends one (`Store.relateFrom_found`, `Store.relateFrom_append`). The earliest one
stays the earliest, since a store only grows at its end (`Extends.findFact?_eq`). So whatever else is done
in between, asserting the fact again gives the same uid and stores nothing (`Ontology.facts_are_sets`). -/

namespace DesignGraph

open Store

namespace Hyperedge

/-- A fact of the kind with exactly these sources and targets, in whatever order. -/
def IsFactOf (r : Uid) (S T : List Uid) (e : Hyperedge) : Prop :=
  e.kind = .fact ∧ e.relation = some r ∧ (∀ u, u ∈ e.sources ↔ u ∈ S) ∧ ∀ u, u ∈ e.targets ↔ u ∈ T

theorem ofList_eq_iff {l m : List Uid} : UidSet.ofList l = .ofList m ↔ ∀ u, u ∈ l ↔ u ∈ m := by
  simp [UidSet.ext_iff]

theorem states_iff {r : Uid} (hne : r ≠ "") {S T : List Uid} {e : Hyperedge} :
    e.states ⟨r, .ofList S, .ofList T⟩ ↔ e.IsFactOf r S T := by
  simp only [states, joins, Bool.and_eq_true, beq_iff_eq, decide_eq_true_eq, asserts?_eq_some,
    ofList_eq_iff, IsFactOf, hne, ne_eq, not_false_eq_true, and_true, and_assoc]

theorem states_bare (k : FactKey) (e : Hyperedge) : e.bare.states k = e.states k := rfl

end Hyperedge

namespace Store

variable {g h : Store} {r f : Uid} {S T : UidSet}

/-! ### The earliest fact -/

theorem findFact?_eq (g : Store) (r : Uid) (S T : UidSet) :
    g.findFact? r S T = (g.edges.find? (Hyperedge.states ⟨r, S, T⟩)).map Hyperedge.uid := by
  rw [← Index.facts_ofEdges, Index.ofEdges, Index.facts_foldl]
  rfl

theorem findFact?_eq_bare (g : Store) (r : Uid) (S T : UidSet) : g.findFact? r S T =
    ((g.edges.map Hyperedge.bare).find? (Hyperedge.states ⟨r, S, T⟩)).map Hyperedge.uid := by
  have hsame : Hyperedge.states ⟨r, S, T⟩ ∘ Hyperedge.bare = Hyperedge.states ⟨r, S, T⟩ :=
    funext (Hyperedge.states_bare ⟨r, S, T⟩)
  rw [findFact?_eq, List.find?_map, hsame, Option.map_map]
  rfl

/-- **The earliest fact stays** the earliest one, however the store grows. -/
theorem Extends.findFact?_eq (hgh : Extends g h) (hf : g.findFact? r S T = some f) :
    h.findFact? r S T = some f := by
  obtain ⟨added, hadded, -⟩ := hgh
  rw [findFact?_eq_bare] at hf ⊢
  obtain ⟨e, he, rfl⟩ := Option.map_eq_some_iff.1 hf
  rw [hadded, List.find?_append, he]
  rfl

theorem findFact?_eq_some_iff : g.findFact? r S T = some f ↔ ∃ before e after,
    g.edges = before ++ e :: after ∧ e.states ⟨r, S, T⟩ ∧ (∀ b ∈ before, ¬ b.states ⟨r, S, T⟩) ∧ e.uid = f := by
  simp only [findFact?_eq, Option.map_eq_some_iff, List.find?_eq_some_iff_append, Bool.not_eq_true,
    Bool.not_eq_eq_eq_not, Bool.not_true]
  constructor
  · rintro ⟨e, ⟨hs, before, after, he, hb⟩, rfl⟩
    exact ⟨before, e, after, he, hs, hb, rfl⟩
  · rintro ⟨before, e, after, he, hs, hb, rfl⟩
    exact ⟨e, ⟨hs, before, after, he, hb⟩, rfl⟩

theorem findFact?_eq_none_iff : g.findFact? r S T = none ↔ ∀ e ∈ g.edges, ¬ e.states ⟨r, S, T⟩ := by
  simp [findFact?_eq]

/-! ### Assertions of a declared kind -/

variable (hr : g.Declares r) (hS : ¬ S.isEmpty) (hT : ¬ T.isEmpty)

include hr hS hT

theorem relateFrom_found (hf : g.findFact? r S T = some f) : g.relateFrom r S T = (some f, g) := by
  obtain ⟨k, hk, hrel⟩ := declares_iff.1 hr
  simp [relateFrom, hS, hT, hk, hrel, hf]

theorem relateFrom_append (hn : g.findFact? r S T = none) : ∃ f, f ∉ g ∧ (g.relateFrom r S T).1 = some f ∧
    (g.relateFrom r S T).2.edges = g.edges ++ [.fact f (g.labelOf r) S.toList T.toList r] := by
  obtain ⟨k, hk, hrel⟩ := declares_iff.1 hr
  have hu : k.uid = r := uid_of_get? hk
  have hlabel : g.labelOf r = k.label := by simp [labelOf, hk]
  have hasserted : g.relateFrom r S T = (some (g.nextFree r).1,
      (g.nextFree r).2.insert (.fact (g.nextFree r).1 k.label S.toList T.toList r)) := by
    simp [relateFrom, hS, hT, hk, hrel, hn, appendFact, hu]
  have hnew : (Hyperedge.fact (g.nextFree r).1 k.label S.toList T.toList r).uid ∉ (g.nextFree r).2 :=
    nextFree_not_mem g r
  refine ⟨(g.nextFree r).1, nextFree_not_mem g r, by rw [hasserted], ?_⟩
  rw [hasserted, hlabel, edges_insert_of_not_mem hnew,
    Hyperedge.tidied_eq_self ⟨S.nodup_toList, T.nodup_toList⟩]
  rfl

/-- What has been asserted is found from then on. -/
theorem findFact?_relateFrom (hne : r ≠ "") (hf : (g.relateFrom r S T).1 = some f) :
    (g.relateFrom r S T).2.findFact? r S T = some f := by
  cases hfind : g.findFact? r S T with
  | some f' =>
    rw [relateFrom_found hr hS hT hfind] at hf ⊢
    rwa [← hf]
  | none =>
    obtain ⟨f', -, hf', hedges⟩ := relateFrom_append hr hS hT hfind
    obtain rfl := Option.some.inj (hf'.symm.trans hf)
    refine findFact?_eq_some_iff.2 ⟨_, _, [], hedges, ?_, ?_, rfl⟩
    · simp only [Hyperedge.states, joins, Hyperedge.asserts?_fact hne, Bool.and_eq_true, beq_iff_eq,
        decide_eq_true_eq, true_and]
      exact ⟨S.ofList_toList, T.ofList_toList⟩
    · simpa using findFact?_eq_none_iff.1 hfind

end Store

namespace Ontology

/-- At some point of the history a relation kind is declared under a uid that is not known then. -/
def DeclaredIn (o : Ontology) (history : List Action) (r : Uid) : Prop :=
  ∃ before sources targets label after,
    history = before ++ .call (.relate r sources targets label) :: after ∧ r ∉ (o.since before).store

theorem DeclaredIn.declares {o : Ontology} {history : List Action} {r : Uid} (hne : r ≠ "")
    (hr : o.DeclaredIn history r) : (o.since history).store.Declares r := by
  obtain ⟨before, sources, targets, label, after, rfl, hnew⟩ := hr
  let declared := (Action.call (.relate r sources targets label)).apply (o.since before)
  have hstored : declared.store.Declares r := by
    refine ⟨Hyperedge.tidied ⟨r, label, .relation, (UidSet.ofList sources).toList,
      (UidSet.ofList targets).toList, none⟩, ?_, rfl, rfl⟩
    show _ ∈ ((o.since before).store.relate r sources targets label).2.edges
    rw [relate, if_neg hne, edges_insert_of_not_mem hnew]
    exact List.mem_append_right _ (List.mem_singleton_self _)
  rw [since_append]
  exact (edits_since declared after).extends_.declares hstored

/-- **Facts have the semantics of sets.** Take any graph that was opened and has a history, and a relation
kind that was declared in it. Asserting a fact of the kind gives a stored fact with just these sources and
targets, each in whatever order and however often they are given. If there was one, it is the earliest one
and nothing is stored; otherwise one edge is appended, under an unknown uid and with the label of the kind.
Whatever is done afterwards, the assertion gives the same uid and stores nothing. An assertion by way of an
index that was kept does the same. -/
theorem facts_are_sets (level : Level) (g : Store) (history : List Action) :
    let o := (ofStore level g).since history
    (∀ r, r ≠ "" → (ofStore level g).DeclaredIn history r → o.store.Declares r) ∧
    ∀ (r : Uid) (S T : List Uid), r ≠ "" → o.store.Declares r → S ≠ [] → T ≠ [] →
      let asserted := o.store.relateFrom r (.ofList S) (.ofList T)
      ∃ f, asserted.1 = some f ∧ (∃ e ∈ asserted.2.edges, e.uid = f ∧ e.IsFactOf r S T) ∧
        ((∃ before e after, o.store.edges = before ++ e :: after ∧ e.uid = f ∧ e.IsFactOf r S T ∧
            (∀ b ∈ before, ¬ b.IsFactOf r S T) ∧ asserted.2 = o.store) ∨
          (∀ e ∈ o.store.edges, ¬ e.IsFactOf r S T) ∧ f ∉ o.store ∧
            ∃ sources targets, sources.Pairwise (· < ·) ∧ targets.Pairwise (· < ·) ∧
              asserted.2.edges =
                o.store.edges ++ [⟨f, o.store.labelOf r, .fact, sources, targets, some r⟩]) ∧
        (∀ (more : List Action) (S' T' : List Uid), (∀ u, u ∈ S' ↔ u ∈ S) → (∀ u, u ∈ T' ↔ u ∈ T) →
          let later := (Ontology.since { o with store := asserted.2 } more).store
          later.relateFrom r (.ofList S') (.ofList T') = (some f, later)) ∧
        ∀ x : Indexed, x.Kept → x.store = o.store →
          (x.relateFrom r (.ofList S) (.ofList T)).1 = some f ∧
            (x.relateFrom r (.ofList S) (.ofList T)).2.store = asserted.2 := by
  intro o
  refine ⟨fun r hne hr => hr.declares hne, fun r S T hne hr hS hT => ?_⟩
  intro asserted
  have hS' := Copying.not_isEmpty_ofList hS
  have hT' := Copying.not_isEmpty_ofList hT
  obtain ⟨f, hf⟩ : ∃ f, asserted.1 = some f := relateFrom_isSome hr hS' hT'
  have hfind : asserted.2.findFact? r (.ofList S) (.ofList T) = some f :=
    findFact?_relateFrom hr hS' hT' hne hf
  refine ⟨f, hf, ?_, ?_, fun more S₁ T₁ hS₁ hT₁ => ?_, fun x hx hstore => ?_⟩
  · obtain ⟨before, e, after, hedges, hs, -, hu⟩ := findFact?_eq_some_iff.1 hfind
    exact ⟨e, by rw [hedges]; simp, hu, (Hyperedge.states_iff hne).1 hs⟩
  · cases hbefore : o.store.findFact? r (.ofList S) (.ofList T) with
    | some f' =>
      have hasserted : asserted = (some f', o.store) := relateFrom_found hr hS' hT' hbefore
      obtain rfl : f' = f := Option.some.inj (by rw [← hf, hasserted])
      obtain ⟨before, e, after, hedges, hs, hb, hu⟩ := findFact?_eq_some_iff.1 hbefore
      exact .inl ⟨before, e, after, hedges, hu, (Hyperedge.states_iff hne).1 hs,
        fun b hb' hfact => hb b hb' ((Hyperedge.states_iff hne).2 hfact), by rw [hasserted]⟩
    | none =>
      obtain ⟨f', hnew, hf', hedges⟩ := relateFrom_append hr hS' hT' hbefore
      obtain rfl := Option.some.inj (hf'.symm.trans hf)
      exact .inr ⟨fun e he hfact =>
        findFact?_eq_none_iff.1 hbefore e he ((Hyperedge.states_iff hne).2 hfact), hnew,
        _, _, (UidSet.ofList S).ascending, (UidSet.ofList T).ascending, hedges⟩
  · intro later
    have hgrown : Extends asserted.2 later :=
      (edits_since { o with store := asserted.2 } more).extends_
    have hdeclared : later.Declares r := hgrown.declares ((adds_relateFrom _ _ _ _).extends.declares hr)
    rw [Hyperedge.ofList_eq_iff.2 hS₁, Hyperedge.ofList_eq_iff.2 hT₁]
    exact relateFrom_found hdeclared hS' hT' (hgrown.findFact?_eq hfind)
  · obtain ⟨hresult, hleft, -⟩ := hx.faithful.relateFrom_eq r (.ofList S) (.ofList T)
    rw [hresult, hleft, hstore]
    exact ⟨hf, rfl⟩

end Ontology

end DesignGraph
