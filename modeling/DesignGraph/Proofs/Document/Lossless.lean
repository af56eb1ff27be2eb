import DesignGraph.Proofs.Document.RoundTrip

/-! # Nothing is lost

A graph that is written and read back has the same edges in the same order, and is written the same way
again (`Store.toYaml_lossless`). All that the text has to do for this is to stand for the document that it
was made from. Whether a given text does can be found out, since values can be compared
(`Yaml.Value.same_iff`). -/

namespace DesignGraph

open Yaml (Value)
open Yaml.Outline (entryValues)

namespace Yaml.Value

/-! ### Comparing values -/

mutual

/-- Whether two values are the same, part by part. -/
def same : Value → Value → Bool
  | atom a, atom b => a == b
  | list xs, list ys => sameItems xs ys
  | map es, map fs => sameEntries es fs
  | set l, set m => l == m
  | pair k v, pair k' v' => same k k' && same v v'
  | recurring n v, recurring n' v' => n == n' && same v v'
  | _, _ => false

/-- Whether two lists have the same items. -/
def sameItems : List Value → List Value → Bool
  | [], [] => true
  | x :: xs, y :: ys => same x y && sameItems xs ys
  | _, _ => false

/-- Whether two mappings have the same entries in the same order. -/
def sameEntries : List (Atom × Value) → List (Atom × Value) → Bool
  | [], [] => true
  | (k, x) :: es, (k', y) :: fs => k == k' && same x y && sameEntries es fs
  | _, _ => false

end

mutual

theorem same_iff : ∀ v w : Value, same v w ↔ v = w
  | atom a, w => by cases w <;> simp [same]
  | list xs, w => by
    have hitems := sameItems_iff xs
    cases w <;> simp [same, hitems]
  | map es, w => by
    have hentries := sameEntries_iff es
    cases w <;> simp [same, hentries]
  | set l, w => by cases w <;> simp [same]
  | pair k v, w => by
    have hkey := same_iff k
    have hvalue := same_iff v
    cases w <;> simp [same, hkey, hvalue]
  | recurring n v, w => by
    have hcontent := same_iff v
    cases w <;> simp [same, hcontent]

theorem sameItems_iff : ∀ xs ys : List Value, sameItems xs ys ↔ xs = ys
  | [], ys => by cases ys <;> simp [sameItems]
  | x :: xs, ys => by
    have hhead := same_iff x
    have htail := sameItems_iff xs
    cases ys <;> simp [sameItems, hhead, htail]

theorem sameEntries_iff : ∀ es fs : List (Atom × Value), sameEntries es fs ↔ es = fs
  | [], fs => by cases fs <;> simp [sameEntries]
  | (k, x) :: es, fs => by
    have hvalue := same_iff x
    have htail := sameEntries_iff es
    cases fs with
    | nil => simp [sameEntries]
    | cons f fs => simp [sameEntries, hvalue, htail, Prod.ext_iff]

end

instance : DecidableEq Value := fun v w => decidable_of_iff (same v w) (same_iff v w)

end Yaml.Value

/-! ### Written, read and written again -/

/-- An edge is written as what is read back for it is written. -/
theorem Document.entry_written (e : Hyperedge) : entry e.written = entry e := by
  simp [entry, Hyperedge.written, Option.filter_filter]

namespace Store

theorem document_of_written {g h : Store} (he : h.edges = g.edges.map Hyperedge.written) :
    h.document = g.document := by
  have hentries : h.edges.map (fun e => Yaml.Outline.map (Document.entry e)) =
      g.edges.map fun e => .map (Document.entry e) := by
    rw [he, List.map_map]
    exact List.map_congr_left fun e _ => congrArg Yaml.Outline.map (Document.entry_written e)
  rw [document, document, hentries]

/-- **Writing and reading lose nothing**: the document of a graph describes a graph with the same edges in
the same order, up to a relation kind that is the empty uid and reads back as none. That graph is written
as the first one was; and it is what the text of the first one is read as, if this text stands for the
document. -/
theorem toYaml_lossless (g : Store) : ∃ h,
    Document.store (.map (entryValues g.document)) = .ok h ∧
      h.edges = g.edges.map Hyperedge.written ∧ h.document = g.document ∧ h.toYaml = g.toYaml ∧
      (Yaml.read g.toYaml = .ok (.map (entryValues g.document)) → Document.read g.toYaml = .ok h) := by
  obtain ⟨h, hread, hedges⟩ := Document.store_document g
  have hdocument : h.document = g.document := document_of_written hedges
  refine ⟨h, hread, hedges, hdocument, congrArg (Yaml.Outline.document true) hdocument, fun htext => ?_⟩
  rw [Document.read, htext]
  exact hread

/-- A fact whose relation kind is the empty uid, and a concept under the empty uid. -/
def oddEdges : Store := ofEdges [.fact "2" "" ["B", "A"] [] "", .concept "" "null"]

theorem toYaml_lossless_oddEdges :
    Yaml.read oddEdges.toYaml = .ok (.map (entryValues oddEdges.document)) ∧
      ∃ h, Document.read oddEdges.toYaml = .ok h ∧ h.edges = oddEdges.edges.map Hyperedge.written ∧
        h.edges ≠ oddEdges.edges ∧ h.toYaml = oddEdges.toYaml := by
  have htext : Yaml.read oddEdges.toYaml = .ok (.map (entryValues oddEdges.document)) := by decide +kernel
  obtain ⟨h, -, hedges, -, hagain, hread⟩ := toYaml_lossless oddEdges
  refine ⟨htext, h, hread htext, hedges, ?_, hagain⟩
  rw [hedges]
  decide +kernel

end Store

end DesignGraph
