import DesignGraph.Proofs.Document.Lossless
import DesignGraph.Proofs.Storage.Load

/-! # Which documents are accepted

A document made of null, truth values, integers and texts, in lists and in mappings (`Yaml.Value.IsPlain`),
describes a graph just if it tells a list of hyperedges (`Document.Told`): it is vacant, or a mapping with the
right format, if any, and every entry of its list gives each field of a hyperedge in the form that it must have
or leaves it out (`Document.Tells`). The graph then holds the first entry of each uid. Otherwise the message
names the first entry that tells no hyperedge, unless it is to show an integer with too many digits
(`Document.read_plain`). -/

namespace DesignGraph

open Yaml (Atom Value)

/-! ### Plain values -/

namespace Yaml

/-- Null, a truth value, an integer, or a text, which surrogates may stand in. -/
def Atom.isPlain : Atom → Bool
  | null | bool _ | int _ | text _ | points _ => true
  | _ => false

/-- A value built from null, truth values, integers and texts, in lists and in mappings. -/
inductive Value.IsPlain : Value → Prop
  | atom {a : Atom} : a.isPlain → IsPlain (.atom a)
  | list {items : List Value} : (∀ v ∈ items, IsPlain v) → IsPlain (.list items)
  | map {entries : List (Atom × Value)} :
      (∀ e ∈ entries, e.1.isPlain) → (∀ e ∈ entries, IsPlain e.2) → IsPlain (.map entries)

namespace Value

/-- A list of texts. -/
def texts (l : List String) : Value := .list (l.map text)

variable {v : Value} {s : String} {items : List Value} {entries : List (Atom × Value)}

theorem IsPlain.text?_eq_some_iff (hv : v.IsPlain) : v.text? = some s ↔ v = .text s := by
  cases hv with
  | @atom a ha => cases a <;> simp_all [text?, atom?, Atom.text?, Atom.isPlain, Value.text]
  | list _ => simp [text?, atom?, Value.text]
  | map _ _ => simp [text?, atom?, Value.text]

theorem IsPlain.items?_eq_some_iff (hv : v.IsPlain) : v.items? = some items ↔ v = .list items := by
  cases hv <;> simp [items?]

theorem IsPlain.entries?_eq_some_iff (hv : v.IsPlain) : v.entries? = some entries ↔ v = .map entries := by
  cases hv <;> simp [entries?]

theorem IsPlain.of_mem_items (hv : IsPlain (.list items)) : ∀ w ∈ items, w.IsPlain := by
  cases hv with
  | list h => exact h

/-- What is found in a plain mapping is plain. -/
theorem IsPlain.of_field {key : String} {w : Value} (hv : IsPlain (.map entries))
    (hw : field key entries = some w) : w.IsPlain := by
  cases hv with
  | map _ h =>
    obtain ⟨e, he, rfl⟩ := Option.map_eq_some_iff.1 hw
    exact h e (List.mem_of_find?_eq_some he)

end Value

end Yaml

namespace Store

/-- Whether two hyperedges have the same uid. -/
def sameUid (e e' : Hyperedge) : Bool := e.uid == e'.uid

theorem edges_foldl_insert_eq (es : List Hyperedge) (g : Store) : (es.foldl insert g).edges =
    g.edges ++ ((es.filter fun e => e.uid ∉ g).eraseDupsBy sameUid).map Hyperedge.tidied := by
  induction es generalizing g with
  | nil => simp
  | cons e es ih =>
    rw [List.foldl_cons, ih]
    by_cases h : e.uid ∈ g
    · rw [edges_insert_of_mem h, List.filter_cons_of_neg (by simpa using h)]
    · have hrest : (es.filter fun e' => e'.uid ∉ g.insert e) =
          (es.filter fun e' => e'.uid ∉ g).filter fun e' => sameUid e' e = false := by
        rw [List.filter_filter]
        refine List.filter_congr fun e' _ => ?_
        simp [mem_insert, sameUid, and_comm]
      rw [edges_insert_of_not_mem h, List.filter_cons_of_pos (by simpa using h), List.eraseDupsBy_cons,
        List.map_cons, List.append_assoc, hrest]
      rfl

/-- **Which edges are stored**: the first one of each uid, with each endpoint at its first place only. -/
theorem edges_ofEdges_eq (es : List Hyperedge) :
    (ofEdges es).edges = (es.eraseDupsBy sameUid).map Hyperedge.tidied := by
  have hall : (es.filter fun e => e.uid ∉ empty) = es :=
    List.filter_eq_self.2 fun e _ => decide_eq_true (show e.uid ∉ empty from List.not_mem_nil)
  rw [ofEdges, edges_foldl_insert_eq, hall]
  rfl

end Store

namespace Document

variable {v w : Value} {entries : List (Atom × Value)} {items : List Value} {key : String} {k : Kind}
  {e : Hyperedge} {es : List Hyperedge} {index : ℕ} {p : Problem}

/-! ### What an entry tells -/

/-- The mapping has nothing under the key, or a vacant value. -/
def Lacks (entries : List (Atom × Value)) (key : String) : Prop := ∀ v ∈ Value.field key entries, v.isVacant

/-- The mapping gives the fields of the hyperedge. Only its uid must be there: a label or endpoints may be
missing or vacant, which means none, a kind may be missing, which means a concept, and a relation kind may be
missing or null. -/
structure Tells (entries : List (Atom × Value)) (e : Hyperedge) : Prop where
  uid : Value.field "uid" entries = some (.text e.uid)
  label : Value.field "label" entries = some (.text e.label) ∨ Lacks entries "label" ∧ e.label = ""
  kind : Value.field "kind" entries = some (.text e.kind.name) ∨
    Value.field "kind" entries = none ∧ e.kind = .concept
  sources : Value.field "from" entries = some (.texts e.sources) ∨
    Lacks entries "from" ∧ e.sources = []
  targets : Value.field "to" entries = some (.texts e.targets) ∨
    Lacks entries "to" ∧ e.targets = []
  relation : Value.field "relation" entries = e.relation.map .text ∨
    Value.field "relation" entries = some .null ∧ e.relation = none

/-- The value is a mapping that gives the fields of the hyperedge. -/
def EntryTells (v : Value) (e : Hyperedge) : Prop := ∃ entries, v = .map entries ∧ Tells entries e

/-- The document is vacant, or a mapping that names no other format and has this list of hyperedges; without
one, the list is empty. -/
def Heads (v : Value) (items : List Value) : Prop :=
  v.isVacant ∧ items = [] ∨ ∃ entries, v = .map entries ∧
    (Value.field "format" entries = none ∨ Value.field "format" entries = some (.text formatName)) ∧
    (Value.field "hyperedges" entries = some (.list items) ∨
      Value.field "hyperedges" entries = none ∧ items = [])

/-- The document lists entries that tell these hyperedges, in this order. -/
def Told (v : Value) (es : List Hyperedge) : Prop := ∃ items, Heads v items ∧ List.Forall₂ EntryTells items es

/-! ### Fields -/

/-- A field that may be left out: it is read as it is written, or it is the default. -/
theorem optional_eq_some_iff {α : Type} {default x : α} {read : Value → Option α} (write : α → Value)
    (hread : ∀ v ∈ Value.field key entries, read v = some x ↔ v = write x)
    (hvacant : (write x).isVacant → x = default) :
    optional default read (Value.field key entries) = some x ↔
      Value.field key entries = some (write x) ∨ Lacks entries key ∧ x = default := by
  unfold Lacks
  cases hfield : Value.field key entries with
  | none =>
    rw [optional, Option.some.injEq]
    simp only [reduceCtorEq, Option.not_mem_none, false_or, false_implies, implies_true, true_and]
    exact eq_comm
  | some v =>
    have hv := hread v hfield
    simp only [Option.mem_some_iff, forall_eq', optional, Option.some.injEq]
    by_cases hvac : v.isVacant
    · rw [if_pos hvac, Option.some.injEq]
      constructor
      · exact fun h => .inr ⟨hvac, h.symm⟩
      · rintro (rfl | ⟨-, h⟩)
        · exact (hvacant hvac).symm
        · exact h.symm
    · simp [hvac, hv]

theorem kind_eq_ok_iff {field : Option Value} : kind field = .ok k ↔
    field = some (.text k.name) ∨ field = none ∧ k = .concept := by
  have hname : ∀ name : String, Kind.ofName? name = some k ↔ name = k.name := by
    intro name
    constructor
    · intro h
      have hfound := List.find?_some h
      exact (beq_iff_eq.1 hfound).symm
    · rintro rfl
      exact Kind.ofName?_name k
  cases field with
  | none => simp [kind, eq_comm]
  | some v =>
    cases v with
    | atom a =>
      cases a with
      | text name =>
        have hfind := hname name
        cases hk : Kind.ofName? name <;> simp_all [kind, Value.text]
      | _ => simp [kind, Value.text]
    | _ => simp [kind, Value.text]

theorem uids?_eq_some_iff {us : List Uid} (hv : v.IsPlain) : uids? v = some us ↔ v = .texts us := by
  have hmap : ∀ (items : List Value), (∀ v ∈ items, v.IsPlain) → ∀ us : List Uid,
      items.mapM Value.text? = some us ↔ items = us.map .text := by
    intro items
    induction items with
    | nil => simp [eq_comm]
    | cons v vs ih =>
      intro h us
      obtain ⟨hv, hvs⟩ := List.forall_mem_cons.1 h
      cases us <;> simp [Option.bind_eq_some_iff, ih hvs, hv.text?_eq_some_iff]
  cases hv with
  | @atom a _ => simp [uids?, Value.items?, Value.texts]
  | list h => simp [uids?, Value.items?, Value.texts, hmap _ h]
  | map _ _ => simp [uids?, Value.items?, Value.texts]

theorem relation?_eq_some_iff {field : Option Value} {r : Option Uid} (hv : ∀ v ∈ field, v.IsPlain) :
    relation? field = some r ↔ field = r.map .text ∨ field = some .null ∧ r = none := by
  cases field with
  | none => cases r <;> simp [relation?]
  | some v =>
    have htext : v ≠ .null → relation? (some v) = v.text?.map some := by
      intro hnull
      rw [relation?]
      rintro rfl
      exact hnull rfl
    by_cases hnull : v = .null
    · subst hnull
      cases r <;> simp [relation?, Value.null, Value.text]
    · rw [htext hnull]
      cases r <;> simp [(hv v rfl).text?_eq_some_iff, hnull]

/-! ### Entries -/

theorem fields?_eq_some_iff {uid : Value} (hv : (Value.map entries).IsPlain)
    (huid : Value.field "uid" entries = some uid) (hkind : kind (Value.field "kind" entries) = .ok k) :
    fields? k uid entries = some e ↔ Tells entries e ∧ e.kind = k := by
  have htext : ∀ {key s}, ∀ v ∈ Value.field key entries, v.text? = some s ↔ v = .text s :=
    fun v hf => (hv.of_field hf).text?_eq_some_iff
  have huids : ∀ {key us}, ∀ v ∈ Value.field key entries, uids? v = some us ↔ v = .texts us :=
    fun v hf => uids?_eq_some_iff (hv.of_field hf)
  have hlabel : ∀ label, optional "" Value.text? (Value.field "label" entries) = some label ↔
      Value.field "label" entries = some (.text label) ∨ Lacks entries "label" ∧ label = "" :=
    fun label => optional_eq_some_iff .text htext fun h => by
      simpa [Value.text, Value.isVacant, Atom.isVacant] using h
  have hends : ∀ key us, optional [] uids? (Value.field key entries) = some us ↔
      Value.field key entries = some (.texts us) ∨ Lacks entries key ∧ us = [] :=
    fun key us => optional_eq_some_iff Value.texts huids fun h => by
      simpa [Value.texts, Value.isVacant] using h
  have hrelation : ∀ r, relation? (Value.field "relation" entries) = some r ↔
      Value.field "relation" entries = r.map .text ∨ Value.field "relation" entries = some .null ∧ r = none :=
    fun r => relation?_eq_some_iff fun v hf => hv.of_field hf
  unfold fields?
  simp only [Option.bind_eq_bind, Option.bind_eq_some_iff, htext uid huid, hlabel, hends, hrelation]
  constructor
  · rintro ⟨u, rfl, label, hlabel, sources, hsources, targets, htargets, r, hr, he⟩
    cases he
    exact ⟨⟨huid, hlabel, kind_eq_ok_iff.1 hkind, hsources, htargets, hr⟩, rfl⟩
  · rintro ⟨h, rfl⟩
    exact ⟨e.uid, Option.some.inj (huid.symm.trans h.uid), e.label, h.label, e.sources, h.sources, e.targets,
      h.targets, e.relation, h.relation, rfl⟩

theorem edge_eq_ok : edge index v = .ok e ↔ ∃ entries uid k, v.entries? = some entries ∧
    Value.field "uid" entries = some uid ∧ kind (Value.field "kind" entries) = .ok k ∧
      fields? k uid entries = some e := by
  constructor
  · intro h
    unfold edge at h
    split at h
    · cases h
    rename_i entries hentries
    split at h
    · cases h
    rename_i uid huid
    split at h
    · cases h
    rename_i k hkind
    cases hfields : fields? k uid entries with
    | none =>
      rw [hfields] at h
      cases h
    | some e' =>
      rw [hfields] at h
      cases h
      exact ⟨entries, uid, k, hentries, huid, hkind, hfields⟩
  · rintro ⟨entries, uid, k, hentries, huid, hkind, hfields⟩
    simp only [edge, hentries, huid, hkind, hfields, Option.elim]

/-- **Which entries describe a hyperedge**: those that tell it. -/
theorem edge_eq_ok_iff (hv : v.IsPlain) : edge index v = .ok e ↔ EntryTells v e := by
  rw [edge_eq_ok]
  constructor
  · rintro ⟨entries, uid, k, hentries, huid, hkind, hfields⟩
    obtain rfl := hv.entries?_eq_some_iff.1 hentries
    exact ⟨entries, rfl, ((fields?_eq_some_iff hv huid hkind).1 hfields).1⟩
  · rintro ⟨entries, rfl, h⟩
    have hkind := kind_eq_ok_iff.2 h.kind
    exact ⟨entries, .text e.uid, e.kind, rfl, h.uid, hkind, (fields?_eq_some_iff hv h.uid hkind).2 ⟨h, rfl⟩⟩

theorem describes_iff_tells (hv : v.IsPlain) : Describes v ↔ ∃ e, EntryTells v e :=
  exists_congr fun _ => edge_eq_ok_iff hv

/-- **The run**: the entries are read just if each of them tells a hyperedge. -/
theorem edges_eq_ok_iff (h : ∀ v ∈ items, v.IsPlain) :
    edges index items = .ok es ↔ List.Forall₂ EntryTells items es := by
  induction items generalizing index es with
  | nil => cases es <;> simp [edges]
  | cons v vs ih =>
    obtain ⟨hv, hvs⟩ := List.forall_mem_cons.1 h
    have hstep : edges index (v :: vs) = .ok es ↔
        ∃ e es', edge index v = .ok e ∧ edges (index + 1) vs = .ok es' ∧ es = e :: es' := by
      rw [edges]
      cases edge index v <;> cases edges (index + 1) vs <;>
        simp [bind, Except.bind, pure, Except.pure, eq_comm]
    simp only [hstep, edge_eq_ok_iff hv, ih hvs]
    cases es with
    | nil => simp
    | cons e es => simp [List.forall₂_cons]

/-- **The step back**: a list that cannot be read has a first entry that tells no hyperedge. -/
theorem edges_eq_error_iff (h : ∀ v ∈ items, v.IsPlain) : edges index items = .error p ↔
    ∃ before entry after, items = before ++ entry :: after ∧ (∀ b ∈ before, ∃ e, EntryTells b e) ∧
      edge (index + before.length) entry = .error p := by
  induction items generalizing index with
  | nil => simp [edges]
  | cons v vs ih =>
    obtain ⟨hv, hvs⟩ := List.forall_mem_cons.1 h
    rw [edges_cons_eq_error, describes_iff_tells hv, ih hvs]
    constructor
    · rintro (hedge | ⟨htells, before, entry, after, rfl, hbefore, hedge⟩)
      · exact ⟨[], v, vs, rfl, by simp, hedge⟩
      · refine ⟨v :: before, entry, after, rfl, List.forall_mem_cons.2 ⟨htells, hbefore⟩, ?_⟩
        rwa [List.length_cons, Nat.add_comm before.length, ← Nat.add_assoc]
    · rintro ⟨before, entry, after, hsplit, hbefore, hedge⟩
      cases before with
      | nil =>
        obtain ⟨rfl, rfl⟩ := List.cons.inj hsplit
        exact .inl hedge
      | cons b before =>
        obtain ⟨rfl, rfl⟩ := List.cons.inj hsplit
        obtain ⟨htells, hbefore⟩ := List.forall_mem_cons.1 hbefore
        refine .inr ⟨htells, before, entry, after, rfl, hbefore, ?_⟩
        rwa [List.length_cons, Nat.add_comm before.length, ← Nat.add_assoc] at hedge

/-- The message names the place of an entry. -/
def Places (index : ℕ) (message : String) : Prop :=
  ∃ rest, message = "Hyperedge #" ++ toString index ++ " " ++ rest

theorem places_noUid (index : ℕ) : Places index (Problem.noUid index).message := by
  have hno : " has no uid" = " " ++ "has no uid" := by decide +kernel
  refine ⟨"has no uid", ?_⟩
  calc (Problem.noUid index).message
    _ = "Hyperedge #" ++ toString index ++ " has no uid" := rfl
    _ = "Hyperedge #" ++ toString index ++ (" " ++ "has no uid") := congrArg _ hno
    _ = "Hyperedge #" ++ toString index ++ " " ++ "has no uid" := String.append_assoc.symm

theorem places_invalid (index : ℕ) (uid : Value) : Places index (Problem.message.invalid index uid) := by
  have hopen : " (" = " " ++ "(" := by decide +kernel
  refine ⟨"(" ++ uid.display ++ ") is invalid", ?_⟩
  calc Problem.message.invalid index uid
    _ = "Hyperedge #" ++ toString index ++ (" " ++ "(") ++ uid.display ++ ") is invalid" :=
      congrArg (fun s => "Hyperedge #" ++ toString index ++ s ++ uid.display ++ ") is invalid") hopen
    _ = "Hyperedge #" ++ toString index ++ " " ++ ("(" ++ uid.display ++ ") is invalid") := by
      simp only [String.append_assoc]

theorem Places.append {message : String} (h : Places index message) (more : String) :
    Places index (message ++ more) := by
  obtain ⟨rest, rfl⟩ := h
  exact ⟨rest ++ more, String.append_assoc⟩

/-- A problem that names a value keeps its message, unless the value itself is the problem. -/
theorem naming_cases (uid : Value) (h : Places index p.message) :
    (∃ b, Problem.naming uid p = .badValue b) ∨ Places index (Problem.naming uid p).message := by
  unfold Problem.naming
  split
  · exact .inr h
  · exact .inl ⟨_, rfl⟩

/-- A problem with an entry is one of its values, or its message names the place of the entry. -/
theorem places_of_edge (h : edge index v = .error p) : (∃ b, p = .badValue b) ∨ Places index p.message := by
  unfold edge at h
  split at h
  · obtain rfl := Except.error.inj h
    exact .inr (places_noUid index)
  split at h
  · obtain rfl := Except.error.inj h
    exact .inr (places_noUid index)
  rename_i uid _
  split at h
  · obtain rfl := Except.error.inj h
    exact naming_cases uid ((places_invalid index uid).append ": " |>.append _)
  · rename_i k _
    cases hfields : fields? k uid _ with
    | some e =>
      rw [hfields] at h
      cases h
    | none =>
      rw [hfields] at h
      obtain rfl := Except.error.inj h
      exact naming_cases uid (places_invalid index uid)

/-! ### Documents -/

theorem list?_eq_some_iff (hv : (Value.map entries).IsPlain) : list? (.map entries) = some items ↔
    Value.field "hyperedges" entries = some (.list items) ∨
      Value.field "hyperedges" entries = none ∧ items = [] := by
  have hlist : list? (.map entries) = ((Value.field "hyperedges" entries).getD (.list [])).items? := rfl
  rw [hlist]
  cases hfield : Value.field "hyperedges" entries with
  | none => simp [Value.items?, eq_comm]
  | some w => simp [(hv.of_field hfield).items?_eq_some_iff]

theorem isFormatName_iff : isFormatName v ↔ v = .text formatName := by
  cases v with
  | atom a => cases a <;> simp [isFormatName, Value.text]
  | _ => simp [isFormatName, Value.text]

/-- **Which headers are in order**, and what is listed then. -/
theorem list_eq_ok_iff (hv : v.IsPlain) : list v = .ok items ↔ Heads v items := by
  unfold list Heads
  by_cases hvacant : v.isVacant
  · rw [if_pos hvacant, Except.ok.injEq]
    constructor
    · exact fun h => .inl ⟨hvacant, h.symm⟩
    · rintro (⟨-, rfl⟩ | ⟨entries, rfl, -, hlist⟩)
      · rfl
      · obtain rfl : entries = [] := by simpa [Value.isVacant] using hvacant
        rcases hlist with hlist | ⟨-, rfl⟩
        · cases hlist
        · rfl
  · rw [if_neg hvacant]
    cases hentries : v.entries? with
    | none =>
      have hmap : ∀ entries, v ≠ .map entries := fun entries h => by simp [h, Value.entries?] at hentries
      have hlist : list? v = none := by rw [list?, hentries]; rfl
      simp [hlist, hvacant, hmap]
    | some entries =>
      obtain rfl := hv.entries?_eq_some_iff.1 hentries
      simp only [hvacant, Value.map.injEq, exists_eq_left', ← list?_eq_some_iff hv]
      cases list? (.map entries) with
      | none => simp
      | some items' =>
        cases hformat : Value.field "format" entries with
        | none => simp [hformat]
        | some format =>
          by_cases hname : isFormatName format <;>
            simp [hformat, hname, ← isFormatName_iff]

theorem plain_of_heads (hv : v.IsPlain) (h : Heads v items) : ∀ w ∈ items, w.IsPlain := by
  rcases h with ⟨-, rfl⟩ | ⟨entries, rfl, -, hlist | ⟨-, rfl⟩⟩
  · simp
  · exact (hv.of_field hlist).of_mem_items
  · simp

/-- **Which documents are accepted**: those that tell a list of hyperedges. -/
theorem store_eq_ok_iff {g : Store} (hv : v.IsPlain) :
    store v = .ok g ↔ ∃ es, Told v es ∧ g = .ofEdges es := by
  have hstore : store v = .ok g ↔
      ∃ items es, list v = .ok items ∧ edges 0 items = .ok es ∧ g = .ofEdges es := by
    unfold store
    cases list v with
    | error p => simp [bind, Except.bind]
    | ok items =>
      cases hedges : edges 0 items <;> simp [bind, Except.bind, pure, Except.pure, hedges, eq_comm]
  rw [hstore]
  constructor
  · rintro ⟨items, es, hlist, hedges, rfl⟩
    have hheads := (list_eq_ok_iff hv).1 hlist
    exact ⟨es, ⟨items, hheads, (edges_eq_ok_iff (plain_of_heads hv hheads)).1 hedges⟩, rfl⟩
  · rintro ⟨es, ⟨items, hheads, htells⟩, rfl⟩
    exact ⟨items, es, (list_eq_ok_iff hv).2 hheads, (edges_eq_ok_iff (plain_of_heads hv hheads)).2 htells, rfl⟩

/-- The first entry that tells no hyperedge stands at this place of the list. -/
def FirstBad (items : List Value) (index : ℕ) : Prop :=
  ∃ before entry after, items = before ++ entry :: after ∧ before.length = index ∧
    (∀ b ∈ before, ∃ e, EntryTells b e) ∧ ∀ e, ¬ EntryTells entry e

/-- If the header is in order, the entries are at fault. -/
theorem firstBad_of_store (hv : v.IsPlain) (hheads : Heads v items) (h : store v = .error p) :
    ∃ index, FirstBad items index ∧ ((∃ b, p = .badValue b) ∨ Places index p.message) := by
  have hplain := plain_of_heads hv hheads
  have hedges : edges 0 items = .error p := by
    rw [store, (list_eq_ok_iff hv).2 hheads] at h
    cases hedges : edges 0 items with
    | ok es => simp [bind, Except.bind, pure, Except.pure, hedges] at h
    | error q => simpa [bind, Except.bind, pure, Except.pure, hedges] using h
  obtain ⟨before, entry, after, rfl, hbefore, hedge⟩ := (edges_eq_error_iff hplain).1 hedges
  rw [Nat.zero_add] at hedge
  refine ⟨before.length, ⟨before, entry, after, rfl, rfl, hbefore, fun e htells => ?_⟩, places_of_edge hedge⟩
  have hok : edge before.length entry = .ok e := (edge_eq_ok_iff (hplain entry (by simp))).2 htells
  rw [hedge] at hok
  cases hok

/-- What a message about the document names cannot be shown. -/
def Unsayable (v : Value) : Prop := ∃ x, (NamesFormat v x ∨ FirstInvalid v x) ∧ ¬ x.isShowable

/-- **Exactly the documents that tell a list of hyperedges are accepted.** A text that stands for a plain value
gives a graph just if the value does: this graph has the first of the hyperedges of each uid, in their order
and with each endpoint once. Otherwise the text is refused: with a message, which names the place of the first
entry that tells no hyperedge if the header is in order, or because what the message names cannot be shown. -/
theorem read_plain {text : String} (htext : Yaml.read text = .ok v) (hv : v.IsPlain) :
    ((∃ g, read text = .ok g) ↔ ∃ es, Told v es) ∧
    (∀ es, Told v es → ∃ g, read text = .ok g ∧
      g.edges = (es.eraseDupsBy Store.sameUid).map Hyperedge.tidied) ∧
    ((∀ es, ¬ Told v es) → ∃ p, read text = .error p ∧ ((∃ b, p = .badValue b) ↔ Unsayable v) ∧
      ∀ items, Heads v items → ∃ index, FirstBad items index ∧ (Unsayable v ∨ Places index p.message)) := by
  have hread : read text = store v := by rw [read, htext]
  rw [hread]
  refine ⟨?_, fun es htold => ⟨_, (store_eq_ok_iff hv).2 ⟨es, htold, rfl⟩, Store.edges_ofEdges_eq es⟩,
    fun hnot => ?_⟩
  · simp only [store_eq_ok_iff hv]
    constructor
    · rintro ⟨g, es, htold, -⟩
      exact ⟨es, htold⟩
    · rintro ⟨es, htold⟩
      exact ⟨_, es, htold, rfl⟩
  · cases hstore : store v with
    | ok g =>
      obtain ⟨es, htold, -⟩ := (store_eq_ok_iff hv).1 hstore
      exact absurd htold (hnot es)
    | error p =>
      have hbad : (∃ b, p = .badValue b) ↔ Unsayable v := by
        constructor
        · rintro ⟨b, rfl⟩
          exact (store_eq_badValue_iff.1 hstore).2
        · intro h
          have hb := store_eq_badValue_iff.2 ⟨rfl, h⟩
          rw [hstore] at hb
          exact ⟨_, Except.error.inj hb⟩
      refine ⟨p, rfl, hbad, fun items hheads => ?_⟩
      obtain ⟨index, hindex, hp⟩ := firstBad_of_store hv hheads hstore
      exact ⟨index, hindex, hp.imp_left hbad.1⟩

/-! ### Documents with entries that are refused -/

/-- The document that lists these entries. -/
def listing (items : List Value) : Value := .map [(.text "hyperedges", .list items)]

theorem plain_listing (h : ∀ v ∈ items, v.IsPlain) : (listing items).IsPlain :=
  .map (by simp [Atom.isPlain]) (by simpa using .list h)

theorem heads_listing (items : List Value) : Heads (listing items) items := .inr ⟨_, rfl, .inl rfl, .inl rfl⟩

/-- What is refused with a problem tells no hyperedges. -/
theorem not_told_of_error (hv : v.IsPlain) (h : store v = .error p) : ∀ es, ¬ Told v es := by
  intro es htold
  have hok := (store_eq_ok_iff hv).2 ⟨es, htold, rfl⟩
  rw [h] at hok
  cases hok

/-- Two entries of one uid. -/
def twice (label : String) : String :=
  "hyperedges:\n- uid: A\n  from: [B, B]\n- uid: A\n  label: " ++ label ++ "\n"

/-- The list of these entries. -/
def twiceItems (label : Value) : List Value := [
  .map [(.text "uid", .text "A"), (.text "from", .texts ["B", "B"])],
  .map [(.text "uid", .text "A"), (.text "label", label)]]

theorem plain_twiceItems {label : Value} (h : label.IsPlain) : ∀ v ∈ twiceItems label, v.IsPlain := by
  have htext : ∀ s, Value.IsPlain (.text s) := fun _ => .atom rfl
  have hends : Value.IsPlain (.texts ["B", "B"]) := .list (by simpa using htext "B")
  have hfirst : Value.IsPlain (.map [(.text "uid", .text "A"), (.text "from", .texts ["B", "B"])]) :=
    .map (by simp [Atom.isPlain]) (by simpa using ⟨htext "A", hends⟩)
  have hsecond : Value.IsPlain (.map [(.text "uid", .text "A"), (.text "label", label)]) :=
    .map (by simp [Atom.isPlain]) (by simpa using ⟨htext "A", h⟩)
  simpa [twiceItems] using ⟨hfirst, hsecond⟩

/-- The first of two entries of one uid stays, but a wrong field in the second one is found. -/
theorem read_plain_twice :
    (∃ g, read (twice "x") = .ok g ∧ g.edges = [⟨"A", "", .concept, ["B"], [], none⟩]) ∧
    ∃ p index, read (twice "1") = .error p ∧ FirstBad (twiceItems (.atom (.int 1))) index ∧
      Places index p.message := by
  constructor
  · have htext : Yaml.read (twice "x") = .ok (listing (twiceItems (.text "x"))) := by decide +kernel
    have hitems := plain_twiceItems (.atom (a := .text "x") rfl)
    have hedges : edges 0 (twiceItems (.text "x")) =
        .ok [⟨"A", "", .concept, ["B", "B"], [], none⟩, ⟨"A", "x", .concept, [], [], none⟩] := rfl
    have htells := (edges_eq_ok_iff hitems).1 hedges
    exact (read_plain htext (plain_listing hitems)).2.1 _ ⟨_, heads_listing _, htells⟩
  · have htext : Yaml.read (twice "1") = .ok (listing (twiceItems (.atom (.int 1)))) := by decide +kernel
    have hplain := plain_listing (plain_twiceItems (.atom (a := .int 1) rfl))
    have hstore : store (listing (twiceItems (.atom (.int 1)))) = .error (.badField 1 (.text "A")) := rfl
    have hsay : ¬ Unsayable (listing (twiceItems (.atom (.int 1)))) := by
      intro h
      have hbad := store_eq_badValue_iff.2 ⟨rfl, h⟩
      rw [hstore] at hbad
      cases hbad
    obtain ⟨p, hp, -, hplace⟩ := (read_plain htext hplain).2.2 (not_told_of_error hplain hstore)
    obtain ⟨index, hindex, hmessage⟩ := hplace _ (heads_listing _)
    exact ⟨p, index, hp, hindex, hmessage.resolve_left hsay⟩

/-- An entry whose uid is an integer. -/
def numberedEntry (n : Int) : Value := .map [(.text "uid", .atom (.int n))]

theorem plain_numberedEntry (n : Int) : (numberedEntry n).IsPlain :=
  .map (by simp [Atom.isPlain]) (by simpa using .atom rfl)

/-- An integer is no uid. -/
theorem not_entryTells_numberedEntry (n : Int) (e : Hyperedge) : ¬ EntryTells (numberedEntry n) e := by
  rintro ⟨entries, hmap, htells⟩
  obtain rfl := Value.map.inj hmap
  have huid : some (Value.atom (.int n)) = some (.text e.uid) := htells.uid
  simp [Value.text] at huid

/-- If the integer has too many digits, there is no message that says so. -/
theorem store_numberedEntry {n : Int} (hn : Yaml.leastUnshown ≤ n.natAbs) :
    store (listing [numberedEntry n]) = .error (.badValue .unshowable) := by
  have hunshown : ¬ (Atom.int n).isShowable := by
    rw [Atom.isShowable, decide_eq_true_iff]
    exact Nat.not_lt.2 hn
  have hnot : ¬ Describes (numberedEntry n) := by
    rw [describes_iff_tells (plain_numberedEntry n)]
    rintro ⟨e, htells⟩
    exact not_entryTells_numberedEntry n e htells
  have hfirst : FirstInvalid (listing [numberedEntry n]) (.atom (.int n)) :=
    ⟨[], numberedEntry n, [], rfl, by simp, hnot, _, rfl, rfl⟩
  exact store_eq_badValue_iff.2 ⟨rfl, _, .inr hfirst, hunshown⟩

/-- An entry whose uid is an integer of too many digits. -/
def longEntry : Value := numberedEntry Yaml.leastUnshown

/-- A document with just this entry tells no hyperedges, and there is no message that says so. -/
theorem read_longEntry : (listing [longEntry]).IsPlain ∧ (∀ es, ¬ Told (listing [longEntry]) es) ∧
    ∀ text, Yaml.read text = .ok (listing [longEntry]) → read text = .error (.badValue .unshowable) := by
  have hplain : (listing [longEntry]).IsPlain :=
    plain_listing (List.forall_mem_singleton.2 (plain_numberedEntry _))
  have hstore : store (listing [longEntry]) = .error (.badValue .unshowable) :=
    store_numberedEntry (Nat.le_of_eq (Int.natAbs_natCast _).symm)
  refine ⟨hplain, not_told_of_error hplain hstore, fun text htext => ?_⟩
  rw [read, htext]
  exact hstore

end Document

end DesignGraph
