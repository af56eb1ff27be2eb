import DesignGraph.Proofs.Document.RoundTrip
import DesignGraph.Proofs.Text.Utf8
import DesignGraph.Proofs.Yaml.Written
import DesignGraph.Storage.Model

/-! # What is saved is loaded

A file with the text of a graph is read as this text, since it is in UTF-8 and its lines end with line feeds
alone. So loading it gives the edges of the graph back (`Model.load_saved`), if the text stands for the
document that it was made from. -/

namespace DesignGraph

open Storage (Found Path)
open Yaml.Outline (entryValues)

variable {g : Store} {look : Path → Found} {path : Path}

/-- The text of a graph has no carriage returns. -/
theorem Store.not_mem_toYaml (g : Store) : '\r' ∉ g.toYaml.toList :=
  (Yaml.Outline.written_document g.document).not_mem_return

/-- **What is saved is loaded**: the same edges in the same order. -/
theorem Model.load_saved (hfile : look path = .file (Text.encodeUtf8 g.toYaml))
    (htext : Yaml.read g.toYaml = .ok (.map (entryValues g.document))) :
    ∃ h, load look path = .ok h ∧ h.edges = g.edges.map Hyperedge.written := by
  obtain ⟨h, hread, hedges⟩ := Document.store_document g
  refine ⟨h, ?_, hedges⟩
  have hbytes : (look path).read = .ok (Text.encodeUtf8 g.toYaml) := by
    rw [hfile]
    rfl
  have hdocument : Document.read g.toYaml = .ok h := by
    rw [Document.read, htext]
    exact hread
  have hlines : String.ofList (Text.unifyLineEnds g.toYaml.toList) = g.toYaml := by
    rw [Text.unifyLineEnds_eq_self g.not_mem_toYaml, String.ofList_toList]
  simp only [load, bind, Except.bind, Except.mapError, hbytes, Text.decodeUtf8_encodeUtf8, hlines, hdocument]

end DesignGraph
