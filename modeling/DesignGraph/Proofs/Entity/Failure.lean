import DesignGraph.Proofs.Entity.Persist

/-! # What a failed generation leaves

Storing a text makes two classes, gives the second one its text and makes it realize the algorithm. It
fails if the second class is refused, and then no label has changed (`Trace.persist_of_none`), or if what
was to be realized is no algorithm class, and then the second class has its text already
(`Trace.persist_cannotRealize`). Nothing is taken back. So what a failed generation leaves is the graph as
it was, with the edges of the two classes at its end (`Trace.generateEntity_failed`). -/

namespace DesignGraph

open Hyperedge

namespace Store

variable {g : Store} {r u : Uid} {root : ClassRoot} {label : String} {superclasses S T : UidSet}

/-! ### What is appended, and how much -/

/-- An edge that comes with a class: the concept, or a fact that places it below others. -/
def OfClass (u : Uid) (e : Hyperedge) : Prop :=
  e = .concept u "" ∨ e.kind = .fact ∧ e.relation = some Vocabulary.isA ∧ e.sources = [u]

theorem size_of_edges {h : Store} (he : h.edges = g.edges) : h.size = g.size := congrArg List.length he

theorem size_insert_le (g : Store) (e : Hyperedge) : (g.insert e).size ≤ g.size + 1 := by
  by_cases h : e.uid ∈ g
  · rw [edges_insert_of_mem h]
    omega
  · rw [size, size, edges_insert_of_not_mem h, List.length_append, List.length_singleton]

theorem size_create_le (g : Store) (u : Uid) (label : String) : (g.create u label).2.size ≤ g.size + 1 := by
  unfold create
  split
  · exact Nat.le_succ _
  · exact size_insert_le g _

theorem size_setLabel (g : Store) (u : Uid) (label : String) : (g.setLabel u label).size = g.size :=
  List.length_map _

theorem size_relateFrom_le (g : Store) (r : Uid) (S T : UidSet) :
    (g.relateFrom r S T).2.size ≤ g.size + 1 := by
  rcases relateFrom_cases g r S T with ⟨h, -⟩ | ⟨-, -, -, ⟨u, h, -⟩ | ⟨k, u, g', h, he, -⟩⟩
  · rw [h]
    exact Nat.le_succ _
  · rw [h]
    exact Nat.le_succ _
  · rw [h, ← size_of_edges he]
    exact size_insert_le g' _

theorem grows_relateFrom (g : Store) (r : Uid) (S T : UidSet) :
    Grows (fun e => e.kind = .fact ∧ e.relation = some r ∧ e.sources = S.toList) g
      (g.relateFrom r S T).2 := by
  rcases relateFrom_cases g r S T with ⟨h, -⟩ | ⟨-, -, -, ⟨u, h, -⟩ | ⟨k, u, g', h, he, -⟩⟩
  · rw [h]
    exact .refl _ g
  · rw [h]
    exact .refl _ g
  · rw [h]
    have hstart : Grows (fun e => e.kind = .fact ∧ e.relation = some r ∧ e.sources = S.toList) g g' :=
      ⟨[], by rw [he, List.append_nil], by simp⟩
    refine hstart.trans ((grows_insert g' _).mono ?_)
    rintro e rfl
    rw [tidied_eq_self ⟨S.nodup_toList, T.nodup_toList⟩]
    exact ⟨rfl, rfl, rfl⟩

/-- A refused assertion leaves the store as it is. -/
theorem store_relateFrom_of_none (h : (g.relateFrom r S T).1 = none) : (g.relateFrom r S T).2 = g := by
  rcases relateFrom_cases g r S T with ⟨h', -⟩ | ⟨-, -, -, ⟨u, h', -⟩ | ⟨k, u, g', h', -⟩⟩
  · rw [h']
  · rw [h'] at h
    cases h
  · rw [h'] at h
    cases h

theorem size_createClass_le (g : Store) (root : ClassRoot) (u : Uid) (label : String)
    (superclasses : UidSet) : (g.createClass root u label superclasses).store.size ≤ g.size + 2 := by
  rcases createClass_cases g root u label superclasses with ⟨-, h, -⟩ | ⟨-, -, -, h⟩
  · rw [h]
    omega
  · rw [h]
    have hcreate := size_create_le g u label
    have hassert := size_relateFrom_le (g.create u label).2 Vocabulary.isA (.single u)
      (g.superclassesFor root u superclasses)
    exact hassert.trans (Nat.succ_le_succ hcreate)

theorem grows_createClass (g : Store) (root : ClassRoot) (u : Uid) (label : String)
    (superclasses : UidSet) :
    Grows (OfClass u) g (g.createClass root u label superclasses).store := by
  rcases createClass_cases g root u label superclasses with ⟨-, h, -⟩ | ⟨-, -, -, h⟩
  · rw [h]
    exact .refl _ g
  · rw [h]
    exact ((grows_create g u label).mono fun _ he => .inl he).trans
      ((grows_relateFrom _ _ _ _).mono fun _ he => .inr he)

end Store

open Store

namespace Entity.Trace

variable {s : Settings} {relevant : UidSet} {t : Trace} {a : Uid} {name text : String} {g h : Store}
  {f : Failure}

/-! ### Failures in storing a text -/

theorem size_holder_le (s : Settings) (g : Store) (name text : String) :
    (holder s g name text).store.size ≤ g.size + 4 := by
  have hhost : (host s g).store.size ≤ g.size + 2 := size_createClass_le g _ _ _ _
  have hholder : (holder s g name text).store.size ≤ (host s g).store.size + 2 :=
    size_createClass_le (host s g).store _ _ _ _
  omega

theorem grows_holder (s : Settings) (g : Store) (name text : String) :
    Grows (fun e => OfClass s.implementationUid e ∨ OfClass (implementationUid s name) e) g
      (holder s g name text).store :=
  ((grows_createClass g _ _ _ _).mono fun _ he => .inl he).trans
    ((grows_createClass (host s g).store _ _ _ _).mono fun _ he => .inr he)

/-- Once its class is made, a text fails to be stored only if what is to be realized is refused. The class
has the text then. -/
theorem persist_cannotRealize {u : Uid} (hc : (holder s t.store name text).result = some u)
    (herr : (persist s t a name text).1 = .error f) :
    f = .cannotRealize (implementationUid s name) a ∧ a ∉ t.store.allClasses .algorithm ∧
      (persist s t a name text).2.store = labelled s t.store name text := by
  have hnot : a ∉ t.store.allClasses .algorithm := by
    intro ha
    rw [(persist_of_some hc ha).1] at herr
    cases herr
  obtain ⟨hstore, hresult⟩ := persist_of_holder (a := a) hc
  rw [hresult] at herr
  split at herr
  · rename_i hr
    refine ⟨(Except.error.inj herr).symm, hnot, hstore.trans ?_⟩
    exact store_relateFrom_of_none (Option.isNone_iff_eq_none.1 hr)
  · cases herr

/-- What a failed generation of an algorithm has made of a graph. -/
structure Failed (s : Settings) (g : Store) (a : Uid) (h : Store) : Prop where
  /-- What was added belongs to the class that hosts all texts or to the one that was to hold this one. -/
  grown : Grows (fun e => OfClass s.implementationUid e ∨
    OfClass (implementationUid s (g.labelOf a)) e) g h
  few : h.size ≤ g.size + 4
  others : ∀ u ∈ g, u ≠ implementationUid s (g.labelOf a) → h.get? u = g.get? u
  algorithm : a ∈ g.allClasses .algorithm → Keeps g h

theorem Failed.refl (s : Settings) (g : Store) (a : Uid) : Failed s g a g where
  grown := .refl _ g
  few := Nat.le_add_right _ _
  others _ _ _ := rfl
  algorithm _ := .refl g

theorem persist_failed (herr : (persist s t a (t.store.labelOf a) text).1 = .error f) :
    Failed s t.store a (persist s t a (t.store.labelOf a) text).2.store := by
  have hkeeps := keeps_holder s t.store (t.store.labelOf a) text
  have hgrown := grows_holder s t.store (t.store.labelOf a) text
  have hfew := size_holder_le s t.store (t.store.labelOf a) text
  -- the label of the second class is replaced only if this class was made
  cases hc : (holder s t.store (t.store.labelOf a) text).result with
  | none =>
    obtain ⟨-, hstore⟩ := persist_of_none (a := a) hc
    rw [hstore]
    exact ⟨hgrown, hfew, fun u hu _ => hkeeps u hu, fun _ => hkeeps⟩
  | some u =>
    obtain ⟨-, hnot, hstore⟩ := persist_cannotRealize hc herr
    rw [hstore]
    refine ⟨hgrown.trans (grows_setLabel _ _ _ _), ?_, fun u hu hne => ?_, fun ha => absurd ha hnot⟩
    · rw [labelled, size_setLabel]
      exact hfew
    · rw [labelled, get?_setLabel_of_ne hne]
      exact hkeeps u hu

/-- **A failed generation** takes nothing back, but it leaves the graph as it was up to the edges of two
implementation classes at its end, and the label of the second of these if what was to be described is no
algorithm class. Something unknown leaves no trace at all. -/
theorem generateEntity_failed (herr : (generateEntity s relevant t a).1 = .error f) :
    Failed s t.store a (generateEntity s relevant t a).2.store ∧
      (a ∉ t.store → (generateEntity s relevant t a).2 = t) := by
  by_cases ha : a ∈ t.store
  · refine ⟨?_, fun hn => absurd ha hn⟩
    have hgen : generateEntity s relevant t a = _ := if_neg (not_not_intro ha)
    simp only at hgen
    cases hpersist : persist s (t.note (t.store.typeNotices relevant (t.store.context a))) a
        (t.store.context a).name (t.store.design s relevant (t.store.context a)).text with
    | mk result t₁ =>
      rw [hpersist] at hgen
      cases result with
      | error f' =>
        have hstore : t₁ = _ := (congrArg Prod.snd hpersist).symm
        rw [hgen]
        change Failed s t.store a t₁.store
        rw [hstore]
        exact persist_failed (t := t.note (t.store.typeNotices relevant (t.store.context a)))
          (congrArg Prod.fst hpersist)
      | ok u =>
        rw [hgen] at herr
        cases herr
  · have hnone : generateEntity s relevant t a = (.error (.unknownAlgorithm a), t) := if_pos ha
    rw [hnone]
    exact ⟨.refl s t.store a, fun _ => rfl⟩

/-! ### A class that is no algorithm -/

open Hyperedge in
/-- An implementation class that holds a text, and an input class that has the label which belongs to it. -/
def namesake : Store where
  edges := vocabularyEdges ++ [
    concept (implementationUid .default "Filter") "kept",
    fact (numbered Vocabulary.isA 6) "IS-A" [implementationUid .default "Filter"]
      [Vocabulary.implementation] Vocabulary.isA,
    concept "Image" "Filter",
    fact (numbered Vocabulary.isA 7) "IS-A" ["Image"] [Vocabulary.input] Vocabulary.isA]
  issued _ := 0
  distinct := by decide +kernel
  tidy := by decide +kernel

/-- The input class is described as if it were an algorithm. -/
def misdescribed : Except Failure Generated × Trace :=
  generateEntity .default (namesake.relevantDatatypes .default) (.start namesake) "Image"

/-- Its text is refused when the two classes have been made. -/
theorem refused_misdescribed :
    misdescribed.1 = .error (.cannotRealize (implementationUid .default "Filter") "Image") ∧
      misdescribed.2.store.size = namesake.size + 3 ∧ implementationUid .default "Filter" ∈ namesake ∧
      namesake.labelOf (implementationUid .default "Filter") = "kept" ∧
      misdescribed.2.store.labelOf (implementationUid .default "Filter") ≠ "kept" := by
  decide +kernel

theorem generateEntity_failed_misdescribed :
    misdescribed.1 = .error (.cannotRealize (implementationUid .default "Filter") "Image") ∧
      Failed .default namesake "Image" misdescribed.2.store := by
  have herr : misdescribed.1 = .error (.cannotRealize (implementationUid .default "Filter") "Image") :=
    refused_misdescribed.1
  exact ⟨herr, (generateEntity_failed herr).1⟩

/-- The generation fails, and yet the graph has more edges than before and has lost a text. -/
theorem changed_misdescribed : ∃ f, misdescribed.1 = .error f ∧
    misdescribed.2.store.size ≠ namesake.size ∧
      ∃ u ∈ namesake, misdescribed.2.store.labelOf u ≠ namesake.labelOf u := by
  obtain ⟨herr, hsize, hmem, hkept, hlost⟩ := refused_misdescribed
  refine ⟨_, herr, ?_, _, hmem, ?_⟩
  · rw [hsize]
    omega
  · rw [hkept]
    exact hlost

end Entity.Trace

end DesignGraph
