import DesignGraph.Proofs.Document.RoundTrip
import DesignGraph.Proofs.Model.Request

/-! # Models opened again

A model may be copied, or written as a document and read back. What comes about has the same edges and no
numbers handed out, nothing remembered and no rejections recorded. None of this shows: it answers every
further run of requests as the original does (`Ontology.reopened_behavesLike`). -/

namespace DesignGraph

open Yaml.Outline (entryValues)

theorem Store.Orderly.map_written {g : Store} (hg : g.Orderly) : g.edges.map Hyperedge.written = g.edges := by
  have hsame : ∀ e ∈ g.edges, e.written = id e := by
    intro e he
    have hstated := hg.stated e he
    obtain ⟨uid, label, kind, sources, targets, relation⟩ := e
    cases relation with
    | none => rfl
    | some r =>
      have hr : r ≠ "" := fun h => hstated (congrArg some h)
      simp [Hyperedge.written, hr]
  rw [List.map_congr_left hsame, List.map_id]

namespace Ontology

/-- `o'` holds the edges of `o`, and after any run of requests it has given the same answers, holds the
same edges and has recorded the same new rejections. -/
def BehavesLike (o' o : Ontology) : Prop :=
  o'.store.edges = o.store.edges ∧ ∀ requests,
    o'.answers requests = o.answers requests ∧
      (o'.after requests).store.edges = (o.after requests).store.edges ∧
      (o.after requests).rejections = o.rejections ++ (o'.after requests).rejections

theorem right_empty : Memory.empty.Right := fun _ _ _ h => by cases h

/-- The model without any content. -/
theorem settled_blank : Settled (ofStore .algorithms .empty) where
  level := rfl
  regular := Store.regular_blank
  orderly := Store.orderly_blank
  memory := right_empty

/-- A store with the edges of a settled graph, opened as a graph of algorithms. -/
theorem Settled.inStep_ofStore {o : Ontology} (ho : Settled o) {g : Store}
    (hg : g.edges = o.store.edges) : InStep o.rejections o (ofStore .algorithms g) := by
  have hstore : (ofStore .algorithms g).store = o.store.renumbered := by
    rw [ofStore, (ho.regular.of_edges hg).copy_eq, Store.renumbered_congr hg]
  refine ⟨ho, ⟨rfl, ?_, ?_, right_empty⟩, ?_, (List.append_nil _).symm⟩
  · rw [hstore]
    exact ho.regular.of_edges rfl
  · rw [hstore]
    exact ho.orderly.renumbered
  · rw [hstore]
    rfl

theorem InStep.behavesLike {o o' : Ontology} (h : InStep o.rejections o o') : o'.BehavesLike o := by
  refine ⟨h.edges, fun requests => ?_⟩
  obtain ⟨hanswers, hlast⟩ := InStep.run requests h
  exact ⟨hanswers, hlast.edges, hlast.rejections⟩

/-- **A model opened again behaves like the original**: a copy of it, and what its document is read back
as. -/
theorem reopened_behavesLike (requests : List Request) :
    let o := (ofStore .algorithms .empty).after requests
    (ofStore .algorithms o.store).BehavesLike o ∧
      ∃ g, Document.store (.map (entryValues o.store.document)) = .ok g ∧
        (ofStore .algorithms g).BehavesLike o := by
  intro o
  have ho : Settled o := (InStep.run requests settled_blank.refl).2.left
  refine ⟨(ho.inStep_ofStore rfl).behavesLike, ?_⟩
  obtain ⟨g, hread, hedges⟩ := Document.store_document o.store
  -- no fact names its relation kind by the empty uid, so the document tells all
  have hsame : g.edges = o.store.edges := hedges.trans ho.orderly.map_written
  exact ⟨g, hread, (ho.inStep_ofStore hsame).behavesLike⟩

end Ontology

end DesignGraph
