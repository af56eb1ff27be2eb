import DesignGraph.Proofs.Text.Utf8
import DesignGraph.Storage.Model

/-! # How loading fails

A model that cannot be loaded is a failure that names its path, or one that does not. Which it is can be
told from what is found under the path: nothing can have this path, the bytes of the file are no text in
UTF-8, a value in the text names nothing, or a message is to name a value that cannot be shown. In all other
cases a graph is loaded, or the failure names the path (`Model.load_foreseen_iff`).

* `Document.NamesFormat`, `Document.FirstInvalid`: the values that the messages about a document name.
* `Document.store_eq_badValue_iff`: reading a document fails with a value exactly if one of these cannot be
  shown. -/

namespace DesignGraph

open Storage (Found Path)
open Yaml (BadValue Value)

namespace Document

/-! ### What messages name -/

/-- The value is an entry that describes a hyperedge, at whichever place of the list it stands. -/
def Describes (v : Value) : Prop := ∃ e, edge 0 v = .ok e

/-- The document has a list of hyperedges and names this as its format, which is another one. -/
def NamesFormat (v format : Value) : Prop :=
  ¬ v.isVacant ∧ ∃ items entries, list? v = some items ∧ v.entries? = some entries ∧
    Value.field "format" entries = some format ∧ ¬ isFormatName format

/-- The entry describes no hyperedge, and this is its uid. -/
def InvalidEntry (entry uid : Value) : Prop :=
  ¬ Describes entry ∧ ∃ entries, entry.entries? = some entries ∧ Value.field "uid" entries = some uid

/-- The first entry of the document that describes no hyperedge has this uid. -/
def FirstInvalid (v uid : Value) : Prop :=
  ∃ before entry after, list v = .ok (before ++ entry :: after) ∧ (∀ b ∈ before, Describes b) ∧
    InvalidEntry entry uid

/-! ### Documents that fail with a value -/

variable {v uid : Value} {e : BadValue} {p : Problem} {index : ℕ}

theorem naming_eq_badValue (hp : ∀ e, p ≠ .badValue e) :
    Problem.naming v p = .badValue e ↔ e = .unshowable ∧ ¬ v.isShowable := by
  unfold Problem.naming
  split
  · rename_i hs
    simp [hp, hs]
  · rename_i hs
    simp [hs, eq_comm]

theorem invalidEntry_iff {entries : List (Yaml.Atom × Value)} {uid' : Value} (hentries : v.entries? = some entries)
    (huid : Value.field "uid" entries = some uid) (hv : ¬ Describes v) : InvalidEntry v uid' ↔ uid' = uid := by
  simp only [InvalidEntry, hv, hentries, not_false_eq_true, true_and, Option.some.injEq, exists_eq_left', huid]
  exact eq_comm

/-- **What an entry is read as**: a hyperedge, nothing for want of a uid, or a problem that names its uid. -/
theorem edge_cases (v : Value) :
    (∃ e, ∀ index, edge index v = .ok e) ∨
    ((∀ uid, ¬ InvalidEntry v uid) ∧ ∀ index, edge index v = .error (.noUid index)) ∨
    ∃ uid, (∀ uid', InvalidEntry v uid' ↔ uid' = uid) ∧
      ∀ index, ∃ p, (∀ e, p ≠ .badValue e) ∧ edge index v = .error (.naming uid p) := by
  cases hentries : v.entries? with
  | none =>
    refine .inr (.inl ⟨fun uid h => ?_, fun index => by simp only [edge, hentries]⟩)
    obtain ⟨-, entries, h, -⟩ := h
    rw [hentries] at h
    cases h
  | some entries =>
    cases huid : Value.field "uid" entries with
    | none =>
      refine .inr (.inl ⟨fun uid h => ?_, fun index => by simp only [edge, hentries, huid]⟩)
      obtain ⟨-, entries', h, h'⟩ := h
      rw [hentries] at h
      cases h
      rw [huid] at h'
      cases h'
    | some uid =>
      have hnaming : (∀ index, ∃ p, (∀ e, p ≠ .badValue e) ∧ edge index v = .error (.naming uid p)) →
          ∃ uid, (∀ uid', InvalidEntry v uid' ↔ uid' = uid) ∧
            ∀ index, ∃ p, (∀ e, p ≠ .badValue e) ∧ edge index v = .error (.naming uid p) := by
        intro h
        have hnot : ¬ Describes v := by
          rintro ⟨e, he⟩
          obtain ⟨p, -, hp⟩ := h 0
          rw [hp] at he
          cases he
        exact ⟨uid, fun _ => invalidEntry_iff hentries huid hnot, h⟩
      cases hkind : kind (Value.field "kind" entries) with
      | error w =>
        refine .inr (.inr (hnaming fun index => ⟨.badKind index uid w, by simp, ?_⟩))
        simp only [edge, hentries, huid, hkind]
      | ok k =>
        cases hfields : fields? k uid entries with
        | none =>
          refine .inr (.inr (hnaming fun index => ⟨.badField index uid, by simp, ?_⟩))
          simp only [edge, hentries, huid, hkind, hfields, Option.elim]
        | some e => exact .inl ⟨e, fun index => by simp only [edge, hentries, huid, hkind, hfields, Option.elim]⟩

theorem describes_iff (index : ℕ) : Describes v ↔ ∃ e, edge index v = .ok e := by
  rcases edge_cases v with ⟨e, h⟩ | ⟨-, h⟩ | ⟨uid, -, h⟩
  · simp [Describes, h]
  · simp [Describes, h]
  · obtain ⟨p, -, hp⟩ := h 0
    obtain ⟨p', -, hp'⟩ := h index
    simp [Describes, hp, hp']

theorem edge_eq_badValue : edge index v = .error (.badValue e) ↔
    e = .unshowable ∧ ∃ uid, InvalidEntry v uid ∧ ¬ uid.isShowable := by
  rcases edge_cases v with ⟨edge', h⟩ | ⟨hno, h⟩ | ⟨uid, huid, h⟩
  · simp only [h, reduceCtorEq, false_iff, not_and]
    rintro - ⟨uid, ⟨hnot, -⟩, -⟩
    exact hnot ⟨edge', h 0⟩
  · simp [h, hno]
  · obtain ⟨p, hp, hedge⟩ := h index
    simp only [hedge, huid, exists_eq_left, Except.error.injEq, naming_eq_badValue hp]

/-- **The step**: the first entry fails, or it describes a hyperedge and the others fail. -/
theorem edges_cons_eq_error {vs : List Value} : edges index (v :: vs) = .error p ↔
    edge index v = .error p ∨ Describes v ∧ edges (index + 1) vs = .error p := by
  rw [edges]
  cases he : edge index v with
  | error p' =>
    have hnot : ¬ Describes v := by simp [describes_iff index, he]
    simp [bind, Except.bind, hnot]
  | ok e =>
    have hv : Describes v := (describes_iff index).2 ⟨e, he⟩
    cases hs : edges (index + 1) vs <;> simp [bind, Except.bind, pure, Except.pure, hv]

/-- **The run**: the entries fail with a value exactly if the first invalid one does. -/
theorem edges_eq_badValue {vs : List Value} : edges index vs = .error (.badValue e) ↔
    e = .unshowable ∧ ∃ before entry after uid, vs = before ++ entry :: after ∧ (∀ b ∈ before, Describes b) ∧
      InvalidEntry entry uid ∧ ¬ uid.isShowable := by
  induction vs generalizing index with
  | nil => simp [edges]
  | cons v vs ih =>
    rw [edges_cons_eq_error, edge_eq_badValue, ih]
    constructor
    · rintro (⟨rfl, uid, huid, hs⟩ | ⟨hv, rfl, before, entry, after, uid, rfl, hbefore, huid, hs⟩)
      · exact ⟨rfl, [], v, vs, uid, rfl, by simp, huid, hs⟩
      · exact ⟨rfl, v :: before, entry, after, uid, rfl, by simpa [hv] using hbefore, huid, hs⟩
    · rintro ⟨rfl, before, entry, after, uid, hvs, hbefore, huid, hs⟩
      cases before with
      | nil =>
        obtain ⟨rfl, rfl⟩ := List.cons.inj hvs
        exact .inl ⟨rfl, uid, huid, hs⟩
      | cons b before =>
        obtain ⟨rfl, rfl⟩ := List.cons.inj hvs
        obtain ⟨hv, hbefore⟩ := List.forall_mem_cons.1 hbefore
        exact .inr ⟨hv, rfl, before, entry, after, uid, rfl, hbefore, huid, hs⟩

theorem list_of_namesFormat {format : Value} (h : NamesFormat v format) :
    list v = .error (.naming format (.otherFormat format)) := by
  obtain ⟨hv, items, entries, hitems, hentries, hformat, hname⟩ := h
  simp only [list, if_neg hv, hitems, hentries, Option.bind_some, hformat, if_neg hname]

theorem list_eq_badValue : list v = .error (.badValue e) ↔
    e = .unshowable ∧ ∃ format, NamesFormat v format ∧ ¬ format.isShowable := by
  constructor
  · intro h
    unfold list at h
    split at h
    · cases h
    rename_i hv
    split at h
    · cases h
    · cases h
    · rename_i items format hitems hformat
      split at h
      · cases h
      rename_i hname
      obtain ⟨entries, hentries, hformat⟩ := Option.bind_eq_some_iff.1 hformat
      obtain ⟨rfl, hs⟩ := (naming_eq_badValue (by simp)).1 (Except.error.inj h)
      exact ⟨rfl, format, ⟨hv, items, entries, hitems, hentries, hformat, hname⟩, hs⟩
  · rintro ⟨rfl, format, hformat, hs⟩
    rw [list_of_namesFormat hformat]
    exact congrArg Except.error ((naming_eq_badValue (by simp)).2 ⟨rfl, hs⟩)

/-- **Documents that fail with a value**: the message about the document names a value that cannot be
shown. -/
theorem store_eq_badValue_iff : store v = .error (.badValue e) ↔
    e = .unshowable ∧ ∃ x, (NamesFormat v x ∨ FirstInvalid v x) ∧ ¬ x.isShowable := by
  cases hl : list v with
  | error p =>
    have hfirst : ∀ x, ¬ FirstInvalid v x := by
      rintro x ⟨before, entry, after, h, -⟩
      rw [hl] at h
      cases h
    have hstore : store v = .error p := by simp [store, hl, bind, Except.bind]
    simp only [hfirst, or_false, hstore]
    rw [← list_eq_badValue, hl]
    simp
  | ok items =>
    have hformat : ∀ x, ¬ NamesFormat v x := by
      intro x h
      rw [list_of_namesFormat h] at hl
      cases hl
    have hstore : store v = .error (.badValue e) ↔ edges 0 items = .error (.badValue e) := by
      cases he : edges 0 items <;> simp [store, hl, he, bind, Except.bind, pure, Except.pure]
    rw [hstore, edges_eq_badValue]
    refine and_congr_right fun _ => ?_
    simp only [hformat, false_or, FirstInvalid, hl, Except.ok.injEq]
    grind

/-- Every value in the text names something, and what a message about the document names can be shown. -/
def Tellable (text : String) : Prop :=
  (∀ e, Yaml.read text ≠ .error (.badValue e)) ∧
    ∀ v, Yaml.read text = .ok v → ∀ x, NamesFormat v x ∨ FirstInvalid v x → x.isShowable

theorem tellable_iff {text : String} : Tellable text ↔ ∀ e, read text ≠ .error (.badValue e) := by
  unfold Tellable read
  split
  · rename_i e h
    simp [h]
  · rename_i fault hbad h
    have hfault : ∀ e, fault ≠ .badValue e := hbad
    simp [h, hfault]
  · rename_i v h
    simp only [h, ne_eq, reduceCtorEq, not_false_eq_true, implies_true, true_and, Except.ok.injEq, forall_eq',
      store_eq_badValue_iff, not_and, not_exists]
    grind

end Document

namespace Model

variable {look : Path → Found} {path : Path}

/-- The text of a file, with a line feed for every end of line. -/
def lines (text : String) : String := String.ofList (Text.unifyLineEnds text.toList)

/-- A graph is loaded, or the failure names the path. -/
def Foreseen (look : Path → Found) (path : Path) : Prop :=
  (∃ g, load look path = .ok g) ∨ ∃ p, load look path = .error p ∧ p.path? = some path

instance (look : Path → Found) (path : Path) : Decidable (Foreseen look path) :=
  match h : load look path with
  | .ok g => .isTrue (.inl ⟨g, h⟩)
  | .error p => decidable_of_iff (p.path? = some path) (by simp [Foreseen, h])

/-- Of a file with a text all depends on the text. -/
theorem foreseen_text {text : String} (h : look path = .file (Text.encodeUtf8 text)) :
    Foreseen look path ↔ Document.Tellable (lines text) := by
  rw [Document.tellable_iff]
  cases hr : Document.read (lines text) with
  | ok g =>
    have hload : load look path = .ok g := by
      rw [lines] at hr
      simp only [load, h, Found.read, bind, Except.bind, Except.mapError, Text.decodeUtf8_encodeUtf8, hr]
    simp [Foreseen, hload]
  | error p =>
    rw [lines] at hr
    cases p <;>
      simp [Foreseen, load, h, Found.read, bind, Except.bind, Except.mapError, Text.decodeUtf8_encodeUtf8, hr,
        ReadProblem.path?]

/-- A file that is no text fails without its path. -/
theorem not_foreseen_noText {bytes : List UInt8} (h : look path = .file bytes) {e : Text.Utf8Error}
    (he : Text.decodeUtf8 bytes = .error e) : ¬ Foreseen look path := by
  simp [Foreseen, load, h, Found.read, bind, Except.bind, Except.mapError, he, ReadProblem.path?]

/-- Where there is no file, all depends on the fault. -/
theorem foreseen_fault {f : Storage.Fault} (h : (look path).read = .error f) :
    Foreseen look path ↔ f.isOfStorage := by
  simp [Foreseen, load, h, bind, Except.bind, Except.mapError, ReadProblem.path?]

/-- **How loading fails.** Whatever is found under a path, a graph is loaded or the failure names the path,
exactly if something can have this path and a file there, if there is one, holds a text in UTF-8 in which
every value names something, and what a message is to name of it can be shown. -/
theorem load_foreseen_iff (look : Path → Found) (path : Path) :
    ((∃ g, load look path = .ok g) ∨ ∃ p, load look path = .error p ∧ p.path? = some path) ↔
      look path ≠ .unnameable ∧ ∀ bytes, look path = .file bytes →
        ∃ text, bytes = Text.encodeUtf8 text ∧ Document.Tellable (lines text) := by
  change Foreseen look path ↔ _
  cases h : look path with
  | file bytes =>
    simp only [ne_eq, reduceCtorEq, not_false_eq_true, true_and, Found.file.injEq, forall_eq']
    constructor
    · intro hf
      cases ht : Text.decodeUtf8 bytes with
      | error e => exact absurd hf (not_foreseen_noText h ht)
      | ok text =>
        have hbytes := Text.decodeUtf8_eq_ok_iff.1 ht
        exact ⟨.ofList text, hbytes, (foreseen_text (hbytes ▸ h)).1 hf⟩
    · rintro ⟨text, rfl, ht⟩
      exact (foreseen_text h).2 ht
  | _ =>
    rw [foreseen_fault (by rw [h]; rfl)]
    simp [Storage.Fault.isOfStorage]

/-- A file that is no text, and one with a date in a thirteenth month. -/
def damaged (path : Path) : Found :=
  if path = .ofText "m.yml" then .file [0xff]
  else if path = .ofText "date.yml" then .file (Text.encodeUtf8 "2020-13-01")
  else .nothing

/-- Neither file is loaded, and neither failure names the path. -/
theorem not_foreseen_damaged :
    ¬ Foreseen damaged (.ofText "m.yml") ∧ ¬ Foreseen damaged (.ofText "date.yml") := by
  decide +kernel

end Model

end DesignGraph
