import DesignGraph.Document
import DesignGraph.Proofs.Store.Growth
import DesignGraph.Yaml.Outline.Value

/-! # Documents read back

What the document of a graph says is read back as the graph: the same edges in the same order, up to a
relation kind that is the empty uid, which is not written (`Document.store_document`). An entry is read
field by field, so each field has a lemma for what is found under its key (`field_from`, `field_to`,
`field_relation`). -/

namespace DesignGraph

open Yaml (Atom Outline Value)
open Yaml.Outline (value values entryValues)

/-- The edge as a document tells it: an empty relation kind counts as none. -/
def Hyperedge.written (e : Hyperedge) : Hyperedge := { e with relation := e.relation.filter (· != "") }

namespace Document

theorem sameKey_text (a b : String) : (Atom.text a).sameKey (.text b) = decide (a = b) := by
  simp [Atom.sameKey, Atom.asInt?, beq_eq_decide]

/-! ### The fields of an entry -/

theorem value_endpoints (uids : List Uid) :
    value (.list (uids.map .text)) = .list (uids.map .text) := by
  rw [value, Yaml.Outline.values_eq_map, List.map_map]
  exact congrArg Value.list (List.map_congr_left fun u _ => by simp [value])

theorem uids?_text (uids : List Uid) : uids? (.list (uids.map .text)) = some uids := by
  have hmap : (uids.map Value.text).mapM Value.text? = some uids := by
    induction uids with
    | nil => rfl
    | cons u uids ih => simp [Value.text?, Value.text, Value.atom?, Atom.text?, ih]
  simpa [uids?, Value.items?] using hmap

/-- A list of endpoints is read back, also where it is left out because it is empty. -/
theorem optional_endpoints (uids : List Uid) :
    optional [] uids? (if uids.isEmpty then none else some (.list (uids.map .text))) = some uids := by
  cases uids with
  | nil => rfl
  | cons u uids =>
    have hread := uids?_text (u :: uids)
    simpa [optional, Value.isVacant] using hread

theorem optional_label (label : String) : optional "" Value.text? (some (.text label)) = some label := by
  by_cases h : label = "" <;>
    simp [optional, Value.isVacant, Atom.isVacant, Value.text, Value.text?, Value.atom?, Atom.text?, h]

theorem kind_name (k : Kind) : kind (some (.text k.name)) = .ok k := by
  simp [kind, Value.text, Kind.ofName?_name]

theorem entryValues_eq_map (entries : List (String × Outline)) :
    entryValues entries = entries.map fun e => (.text e.1, value e.2) := by
  induction entries with
  | nil => simp [entryValues]
  | cons e es ih => simp [entryValues, ih]

theorem field_entryValues (key : String) (entries : List (String × Outline)) :
    Value.field key (entryValues entries) = (entries.find? (·.1 == key)).map fun e => value e.2 := by
  have hkey : ((fun e : Atom × Value => e.1.sameKey (.text key)) ∘
      fun e : String × Outline => (Atom.text e.1, value e.2)) = fun e => e.1 == key := by
    funext e
    simp [sameKey_text, beq_eq_decide]
  rw [entryValues_eq_map, Value.field, Value.lookup, List.find?_map, hkey, Option.map_map]
  rfl

/-- What is found under a key where a list of endpoints may stand, and what is found behind it. -/
theorem find?_endpointField (key key' : String) (uids : List Uid) (rest : List (String × Outline)) :
    (endpointField key' uids ++ rest).find? (·.1 == key) =
      if key' = key ∧ uids ≠ [] then some (key', .list (uids.map .text)) else rest.find? (·.1 == key) := by
  unfold endpointField
  cases uids with
  | nil => simp
  | cons u uids => by_cases h : key' = key <;> simp [h]

variable (e : Hyperedge)

theorem field_uid : Value.field "uid" (entryValues (entry e)) = some (.text e.uid) := by
  simp [field_entryValues, entry, value]

theorem field_label : Value.field "label" (entryValues (entry e)) = some (.text e.label) := by
  simp [field_entryValues, entry, value]

theorem field_kind : Value.field "kind" (entryValues (entry e)) = some (.text e.kind.name) := by
  simp [field_entryValues, entry, value]

/-- What an entry holds besides the fields that are always there. -/
theorem find?_entry {key : String} (hkey : key ∉ ["uid", "label", "kind"]) :
    (entry e).find? (·.1 == key) =
      if "from" = key ∧ e.sources ≠ [] then some ("from", .list (e.sources.map .text))
      else if "to" = key ∧ e.targets ≠ [] then some ("to", .list (e.targets.map .text))
      else (e.written.relation.toList.map fun r => ("relation", Outline.text r)).find? (·.1 == key) := by
  simp only [List.mem_cons, List.not_mem_nil, or_false, not_or] at hkey
  obtain ⟨huid, hlabel, hkind⟩ := hkey
  rw [entry, List.append_assoc, List.append_assoc, List.find?_append, find?_endpointField,
    find?_endpointField]
  simp [Ne.symm huid, Ne.symm hlabel, Ne.symm hkind, Hyperedge.written]

theorem field_from : Value.field "from" (entryValues (entry e)) =
    if e.sources.isEmpty then none else some (.list (e.sources.map .text)) := by
  rw [field_entryValues, find?_entry e (by decide)]
  by_cases hnone : e.sources = []
  · simp [hnone]
  · simp [hnone, value_endpoints]

theorem field_to : Value.field "to" (entryValues (entry e)) =
    if e.targets.isEmpty then none else some (.list (e.targets.map .text)) := by
  rw [field_entryValues, find?_entry e (by decide)]
  by_cases hnone : e.targets = []
  · simp [hnone]
  · simp [hnone, value_endpoints]

theorem field_relation : Value.field "relation" (entryValues (entry e)) =
    e.written.relation.map Value.text := by
  rw [field_entryValues, find?_entry e (by decide)]
  cases e.written.relation <;> simp [value]

/-! ### Entries and documents -/

/-- An entry is read back as its edge. -/
theorem edge_entry (index : Nat) : edge index (.map (entryValues (entry e))) = .ok e.written := by
  have hrelation : relation? (e.written.relation.map Value.text) = some e.written.relation := by
    cases e.written.relation <;> rfl
  have hfields : fields? e.kind (.text e.uid) (entryValues (entry e)) = some e.written := by
    unfold fields?
    simp only [field_label, field_from, field_to, field_relation, optional_label, optional_endpoints,
      hrelation]
    rfl
  unfold edge
  simp only [Value.entries?, field_uid, field_kind, kind_name, hfields]
  rfl

theorem edges_entries (es : List Hyperedge) (index : Nat) :
    edges index (es.map fun e => .map (entryValues (entry e))) = .ok (es.map Hyperedge.written) := by
  induction es generalizing index with
  | nil => rfl
  | cons e es ih =>
    rw [List.map_cons, edges, edge_entry, ih]
    rfl

theorem list_document (g : Store) : list (.map (entryValues g.document)) =
    .ok (g.edges.map fun e => .map (entryValues (entry e))) := by
  have hentries : value (.list (g.edges.map fun e => .map (entry e))) =
      .list (g.edges.map fun e => .map (entryValues (entry e))) := by
    rw [value, Yaml.Outline.values_eq_map, List.map_map]
    exact congrArg Value.list (List.map_congr_left fun e _ => by simp [value])
  have hlist : list? (.map (entryValues g.document)) =
      some (g.edges.map fun e => .map (entryValues (entry e))) := by
    simp [list?, Value.entries?, field_entryValues, Store.document, hentries, Value.items?]
  have hformat : Value.field "format" (entryValues g.document) = some (.text formatName) := by
    simp [field_entryValues, Store.document, value]
  have hvacant : (Value.map (entryValues g.document)).isVacant = false := by
    simp [Value.isVacant, Store.document, entryValues]
  have hname : isFormatName (.text formatName) = true := by
    simp [isFormatName, Value.text]
  unfold list
  simp only [hvacant, hlist, Value.entries?, Option.bind_some, hformat, hname, if_true]
  rfl

end Document

/-- **Reading back**: the document of a graph describes a graph with the same edges in the same order. -/
theorem Document.store_document (g : Store) : ∃ h,
    Document.store (.map (entryValues g.document)) = .ok h ∧ h.edges = g.edges.map Hyperedge.written := by
  have hdistinct : ((g.edges.map Hyperedge.written).map Hyperedge.uid).Nodup := by
    rw [List.map_map]
    exact g.distinct
  have htidy : ∀ e ∈ g.edges.map Hyperedge.written, e.Tidy := by
    intro a ha
    obtain ⟨e, he, rfl⟩ := List.mem_map.1 ha
    exact g.tidy e he
  refine ⟨.ofEdges (g.edges.map Hyperedge.written), ?_, Store.edges_ofEdges hdistinct htidy⟩
  rw [Document.store, list_document]
  exact congrArg (fun es => es >>= fun es => .ok (Store.ofEdges es)) (edges_entries g.edges 0)

end DesignGraph
