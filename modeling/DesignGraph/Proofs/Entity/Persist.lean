import DesignGraph.Proofs.Entity.Plan
import DesignGraph.Proofs.Model.Regular
import DesignGraph.Proofs.Network.Factory

/-! # What a run stores

The uid of an implementation is made from the label of the algorithm, and storing a text replaces the label
of the class that has this uid. So of several algorithms with one label only the last one keeps its text:
`Stored` says what a run has stored so far, `Stored.generateNext` is its step, and `generate_stored` what
it comes to for a whole run. Everything else keeps its label. -/

namespace DesignGraph

namespace Store

variable {g h : Store} {u v : Uid} {label : String}

/-! ### Labels -/

theorem map_bare_setLabel : (g.setLabel u label).edges.map Hyperedge.bare = g.edges.map Hyperedge.bare := by
  have hb : Hyperedge.bare ∘ relabel u label = Hyperedge.bare := funext (bare_relabel u label)
  simp [setLabel, hb]

theorem get?_setLabel : (g.setLabel u label).get? v = (g.get? v).map (relabel u label) := by
  have hu : (fun e : Hyperedge => e.uid == v) ∘ relabel u label = fun e => e.uid == v := by
    funext e
    simp [uid_relabel]
  rw [get?, setLabel, List.find?_map, hu]
  rfl

theorem labelOf_setLabel_self (hu : u ∈ g) : (g.setLabel u label).labelOf u = label := by
  obtain ⟨e, he⟩ := Option.ne_none_iff_exists'.1 fun hn => get?_eq_none_iff.1 hn hu
  have hr : relabel u label e = { e with label } := if_pos (uid_of_get? he)
  simp [labelOf, get?_setLabel, he, hr]

theorem get?_setLabel_of_ne (hv : v ≠ u) : (g.setLabel u label).get? v = g.get? v := by
  rw [get?_setLabel]
  cases he : g.get? v with
  | none => rfl
  | some e =>
    have hr : relabel u label e = e := if_neg fun h => hv ((uid_of_get? he).symm.trans h)
    rw [Option.map_some, hr]

theorem labelOf_setLabel_of_ne (hv : v ≠ u) : (g.setLabel u label).labelOf v = g.labelOf v := by
  rw [labelOf, labelOf, get?_setLabel_of_ne hv]

end Store

open Store

namespace Entity

variable {s : Settings} {relevant : UidSet} {t : Trace} {a : Uid} {name text : String} {g h : Store}
  {r : Report} {e e' : Generated}

/-- The last entity of a report with this label. -/
def Report.latest? (r : Report) (name : String) : Option Generated :=
  r.generated.reverse.find? fun e => e.label == name

namespace Trace

theorem implementationUid_inj {name' : String} :
    implementationUid s name = implementationUid s name' ↔ name = name' := by
  simp [implementationUid, String.append_right_inj]

/-! ### Storing one text

A text is stored in three steps: the class that hosts all texts is made, then the class that holds this
one, and then this class takes the text as its label and is made to realize the algorithm. -/

/-- The class that hosts all texts is made. -/
def host (s : Settings) (g : Store) : Outcome :=
  g.createClass .implementation s.implementationUid s.implementationLabel ∅

/-- The class that holds a text of this name is made. -/
def holder (s : Settings) (g : Store) (name text : String) : Outcome :=
  (host s g).store.createClass .implementation (implementationUid s name) text
    (.single s.implementationUid)

/-- The class takes the text as its label. -/
def labelled (s : Settings) (g : Store) (name text : String) : Store :=
  (holder s g name text).store.setLabel (implementationUid s name) text

/-- What storing a text for an algorithm leaves. -/
structure Stores (s : Settings) (g h : Store) (a : Uid) (name text : String) : Prop where
  extended : Extends g h
  label : h.labelOf (implementationUid s name) = text
  others : ∀ u ∈ g, u ≠ implementationUid s name → h.labelOf u = g.labelOf u
  implementation : implementationUid s name ∈ h.allClasses .implementation
  realizes : MadeClass h (implementationUid s name) (.single a)

theorem keeps_holder (s : Settings) (g : Store) (name text : String) :
    Keeps g (holder s g name text).store :=
  (keeps_createClass g _ _ _ _).trans (keeps_createClass _ _ _ _ _)

theorem extends_holder (s : Settings) (g : Store) (name text : String) :
    Extends g (holder s g name text).store :=
  (extends_createClass g _ _ _ _).trans (extends_createClass _ _ _ _ _)

theorem extends_labelled (s : Settings) (g : Store) (name text : String) :
    Extends (holder s g name text).store (labelled s g name text) :=
  grows_setLabel _ _ _ _

/-- A class that holds a text is an implementation class. -/
theorem madeClass_holder {u : Uid} (hc : (holder s g name text).result = some u) :
    MadeClass (holder s g name text).store (implementationUid s name)
        ((host s g).store.superclassesFor .implementation (implementationUid s name)
          (.single s.implementationUid)) ∧
      implementationUid s name ∈ (holder s g name text).store.allClasses .implementation := by
  obtain ⟨-, hm⟩ := madeClass_of_createClass hc
  obtain ⟨c, hk⟩ := UidSet.isEmpty_eq_false_iff.1 hm.nonempty
  have hc : c ∈ (host s g).store.allClasses .implementation := (mem_superclassesFor.1 hk).2.1
  exact ⟨hm, hm.mem_allClasses hk (allClasses_mono (extends_createClass _ _ _ _ _) hc)⟩

theorem persist_of_none (hc : (holder s t.store name text).result = none) :
    (persist s t a name text).1 = .error (.cannotCreate (implementationUid s name) a) ∧
      (persist s t a name text).2.store = (holder s t.store name text).store := by
  have hn : (holder s t.store name text).result.isNone := by simp [hc]
  have hp : persist s t a name text = (_, _) := if_pos hn
  rw [hp]
  exact ⟨rfl, rfl⟩

/-- Once the class is made, storing its text ends as realizing the algorithm does. -/
theorem persist_of_holder {u : Uid} (hc : (holder s t.store name text).result = some u) :
    let realized := (labelled s t.store name text).realizes [implementationUid s name] [a]
    (persist s t a name text).2.store = realized.store ∧
      (persist s t a name text).1 = if realized.result.isNone then
        .error (.cannotRealize (implementationUid s name) a) else .ok (implementationUid s name) := by
  intro realized
  have hn : ¬ (holder s t.store name text).result.isNone := by simp [hc]
  have hp : persist s t a name text = if realized.result.isNone then (_, _) else (_, _) := if_neg hn
  rw [hp]
  split <;> exact ⟨rfl, rfl⟩

/-- Once the class is made, an algorithm is realized by it. -/
theorem persist_of_some {u : Uid} (hc : (holder s t.store name text).result = some u)
    (ha : a ∈ t.store.allClasses .algorithm) :
    (persist s t a name text).1 = .ok (implementationUid s name) ∧
      (persist s t a name text).2.store =
        ((labelled s t.store name text).isA (.single (implementationUid s name)) (.single a)).2 := by
  obtain ⟨hm, himpl⟩ := madeClass_holder hc
  have hext := (extends_holder s t.store name text).trans (extends_labelled s t.store name text)
  have hreal := realizes_eq (allClasses_mono (extends_labelled s t.store name text) himpl)
    (allClasses_mono hext ha)
  obtain ⟨f, hf⟩ := relateFrom_isSome ((extends_labelled s t.store name text).declares hm.declared)
    (UidSet.not_isEmpty_single (implementationUid s name)) (UidSet.not_isEmpty_single a)
  have hr : ¬ ((labelled s t.store name text).realizes [implementationUid s name] [a]).result.isNone := by
    simp [hreal, isA, hf]
  obtain ⟨hstore, hresult⟩ := persist_of_holder (a := a) hc
  rw [hresult, hstore, if_neg hr, hreal]
  exact ⟨rfl, rfl⟩

/-- **Storing a text**: the class is refused and all labels stay, or it holds the text. -/
theorem persist_spec (s : Settings) (t : Trace) (name text : String)
    (ha : a ∈ t.store.allClasses .algorithm) :
    ((∃ f, (persist s t a name text).1 = .error f) ∧
      Extends t.store (persist s t a name text).2.store ∧
      Keeps t.store (persist s t a name text).2.store) ∨
    ((persist s t a name text).1 = .ok (implementationUid s name) ∧
      Stores s t.store (persist s t a name text).2.store a name text) := by
  cases hc : (holder s t.store name text).result with
  | none =>
    obtain ⟨hres, hstore⟩ := persist_of_none (a := a) hc
    rw [hstore]
    exact .inl ⟨⟨_, hres⟩, extends_holder s t.store name text, keeps_holder s t.store name text⟩
  | some u =>
    obtain ⟨hres, hstore⟩ := persist_of_some hc ha
    obtain ⟨hm, himpl⟩ := madeClass_holder hc
    rw [hstore]
    refine .inr ⟨hres, ?_⟩
    have hlabel := extends_labelled s t.store name text
    have hext := (extends_holder s t.store name text).trans hlabel
    have hkeeps := keeps_relateFrom (labelled s t.store name text) Vocabulary.isA
      (.single (implementationUid s name)) (.single a)
    have hisA : Extends (labelled s t.store name text)
        ((labelled s t.store name text).isA (.single (implementationUid s name)) (.single a)).2 :=
      (adds_relateFrom _ _ _ _).extends
    refine ⟨hext.trans hisA, ?_, fun v hv hne => ?_, allClasses_mono (hlabel.trans hisA) himpl, ?_⟩
    · have := hkeeps.labelOf (hlabel.mem hm.stored)
      exact this.trans (labelOf_setLabel_self hm.stored)
    · have := hkeeps.labelOf (hext.mem hv)
      exact (this.trans (labelOf_setLabel_of_ne hne)).trans
        ((keeps_holder s t.store name text).labelOf hv)
    · refine ⟨hm.named, (hlabel.trans hisA).mem hm.stored, (hlabel.trans hisA).declares hm.declared,
        UidSet.not_isEmpty_single a, ?_⟩
      exact joins_relateFrom (hlabel.declares hm.declared) (by decide)
        (UidSet.not_isEmpty_single _) (UidSet.not_isEmpty_single _)

/-! ### Describing one algorithm -/

/-- An entity as it is made of an algorithm. -/
structure Describes (g : Store) (s : Settings) (relevant : UidSet) (a : Uid) (e : Generated) : Prop where
  algorithm : e.algorithm = a
  label : e.label = g.labelOf a
  implementation : e.implementation = implementationUid s e.label
  text : e.text = g.render s relevant a
  parts : e.parts = (g.partsOf a).toList

theorem generateEntity_spec (s : Settings) (relevant : UidSet)
    (ha : a ∈ t.store.allClasses .algorithm) :
    ((∃ f, (generateEntity s relevant t a).1 = .error f) ∧
      Extends t.store (generateEntity s relevant t a).2.store ∧
      Keeps t.store (generateEntity s relevant t a).2.store) ∨
    ∃ e, (generateEntity s relevant t a).1 = .ok e ∧ Describes t.store s relevant a e ∧
      Stores s t.store (generateEntity s relevant t a).2.store a e.label e.text := by
  have hmem : a ∈ t.store := (mem_allClasses.1 ha).1
  have hp := persist_spec s (t.note (t.store.typeNotices relevant (t.store.context a)))
    (t.store.context a).name (t.store.design s relevant (t.store.context a)).text ha
  unfold generateEntity
  rw [if_neg (not_not_intro hmem)]
  simp only
  split
  · rename_i f t' he
    rw [he] at hp
    obtain ⟨-, hext, hkeeps⟩ := hp.resolve_right fun h => by cases h.1
    exact .inl ⟨⟨f, rfl⟩, hext, hkeeps⟩
  · rename_i u t' he
    rw [he] at hp
    obtain ⟨hok, hstores⟩ := hp.resolve_left fun h => by
      obtain ⟨f, hf⟩ := h.1
      cases hf
    obtain rfl := Except.ok.inj hok
    exact .inr ⟨_, rfl, ⟨rfl, rfl, rfl, rfl, rfl⟩, hstores⟩

/-! ### The report of a run -/

end Trace

namespace Report

theorem latest?_append {failed : List (Uid × String)} :
    (Report.mk (r.generated ++ [e]) failed).latest? name =
      if e.label = name then some e else r.latest? name := by
  simp only [latest?, List.reverse_append, List.reverse_singleton, List.singleton_append, List.find?_cons]
  by_cases h : e.label = name
  · simp [h]
  · simp [beq_false_of_ne h, h]

theorem label_of_latest? (h : r.latest? name = some e) : e.label = name := by
  simpa using List.find?_some h

/-- An entity is not the last one of its label only if there is another one after it. -/
theorem latest?_of_mem (he : e ∈ r.generated) : ∃ e', r.latest? e.label = some e' := by
  refine Option.isSome_iff_exists.1 (List.find?_isSome.2 ⟨e, List.mem_reverse.2 he, ?_⟩)
  simp

end Report

namespace Trace

/-- What a run has stored so far, from the store `g` on. -/
structure Stored (s : Settings) (g : Store) (r : Report) (h : Store) : Prop where
  extended : Extends g h
  stored : ∀ e ∈ r.generated, e.implementation = implementationUid s e.label ∧
    e.implementation ∈ h.allClasses .implementation ∧
    MadeClass h e.implementation (.single e.algorithm)
  latest : ∀ name e, r.latest? name = some e → h.labelOf (implementationUid s name) = e.text
  others : ∀ u ∈ g, (∀ e ∈ r.generated, u ≠ e.implementation) → h.labelOf u = g.labelOf u

theorem stored_start {failed : List (Uid × String)} : Stored s g ⟨[], failed⟩ g where
  extended := .refl _ g
  stored := by simp
  latest := by simp [Report.latest?]
  others _ _ _ := rfl

namespace Stored

variable {h' : Store} {failed : List (Uid × String)}

theorem mem_of_latest? (hst : Stored s g r h) (he : r.latest? name = some e) :
    implementationUid s name ∈ h := by
  obtain ⟨hu, hi, -⟩ := hst.stored e (List.mem_reverse.1 (List.mem_of_find?_eq_some he))
  rw [hu, Report.label_of_latest? he] at hi
  exact (mem_allClasses.1 hi).1

/-- Nothing is lost where no label changes. -/
theorem keeps (hst : Stored s g r h) (hext : Extends h h') (hkeeps : Keeps h h') :
    Stored s g ⟨r.generated, failed⟩ h' where
  extended := hst.extended.trans hext
  stored e he := by
    obtain ⟨hu, hi, hj⟩ := hst.stored e he
    exact ⟨hu, allClasses_mono hext hi, hj.mono hext⟩
  latest name e he := (hkeeps.labelOf (hst.mem_of_latest? he)).trans (hst.latest name e he)
  others u hu hne := (hkeeps.labelOf (hst.extended.mem hu)).trans (hst.others u hu hne)

/-- A text that is stored replaces that of its name only. -/
theorem stores (hst : Stored s g r h) (hu : e.implementation = implementationUid s e.label)
    (hstores : Stores s h h' e.algorithm e.label e.text) :
    Stored s g ⟨r.generated ++ [e], failed⟩ h' where
  extended := hst.extended.trans hstores.extended
  stored e' he' := by
    rcases List.mem_append.1 he' with he' | he'
    · obtain ⟨hu, hi, hj⟩ := hst.stored e' he'
      exact ⟨hu, allClasses_mono hstores.extended hi, hj.mono hstores.extended⟩
    · obtain rfl := List.mem_singleton.1 he'
      rw [hu]
      exact ⟨rfl, hstores.implementation, hstores.realizes⟩
  latest name e' he' := by
    rw [Report.latest?_append] at he'
    split at he'
    · rename_i hname
      obtain rfl := Option.some.inj he'
      rw [← hname]
      exact hstores.label
    · rename_i hname
      have hne : implementationUid s name ≠ implementationUid s e.label := fun hc =>
        hname (implementationUid_inj.1 hc).symm
      exact (hstores.others _ (hst.mem_of_latest? he') hne).trans (hst.latest name e' he')
  others u hug hne := by
    have hne' : u ≠ implementationUid s e.label := hu ▸ hne e (by simp)
    have hother := hstores.others u (hst.extended.mem hug) hne'
    exact hother.trans (hst.others u hug fun e' he' => hne e' (List.mem_append_left _ he'))

/-- **The step**: whether a text is stored or not, nothing else is lost. -/
theorem generateNext (hst : Stored s g r t.store) (ha : a ∈ g.allClasses .algorithm) :
    Stored s g (generateNext s relevant (r, t) a).1 (generateNext s relevant (r, t) a).2.store := by
  have hspec := generateEntity_spec s relevant (allClasses_mono hst.extended ha)
  unfold Trace.generateNext
  simp only
  split
  · rename_i e t' he
    rw [he] at hspec
    rcases hspec with ⟨⟨f, hf⟩, -⟩ | ⟨e', he', hd, hstores⟩
    · cases hf
    · obtain rfl := Except.ok.inj he'
      refine hst.stores hd.implementation ?_
      rw [hd.algorithm]
      exact hstores
  · rename_i f t' he
    rw [he] at hspec
    rcases hspec with ⟨-, hext, hkeeps⟩ | ⟨e', he', -⟩
    · exact hst.keeps hext hkeeps
    · cases he'

theorem foldl (algorithms : List Uid) : ∀ state : Report × Trace, Stored s g state.1 state.2.store →
    (∀ a ∈ algorithms, a ∈ g.allClasses .algorithm) →
    Stored s g (algorithms.foldl (Trace.generateNext s relevant) state).1
      (algorithms.foldl (Trace.generateNext s relevant) state).2.store := by
  induction algorithms with
  | nil => exact fun state hst _ => hst
  | cons a l ih =>
    intro state hst hl
    obtain ⟨ha, hl⟩ := List.forall_mem_cons.1 hl
    exact ih _ (hst.generateNext ha) hl

end Stored

end Trace

end Entity

namespace Store

open Entity

variable {g : Store} {s : Settings} {targets : UidSet} {uid label : String} {r : Report} {t : Trace}

/-! ### Whole runs -/

/-- The targets that are skipped. -/
def skipped (g : Store) (s : Settings) (targets : UidSet) : List (Uid × String) :=
  (g.plan s targets).cyclic.map fun c => (c.1, cycleMessage c.2)

/-- A plan carried out. -/
def carryOut (g : Store) (s : Settings) (targets : UidSet) : Report × Trace :=
  (g.plan s targets).order.foldl (Trace.generateNext s (g.relevantDatatypes s))
    (⟨[], g.skipped s targets⟩,
      (Trace.start g).note ((g.skipped s targets).map fun c => .skipped c.1 c.2))

theorem generate_eq_ok : g.generate s uid label = .ok (r, t) ↔ ∃ targets, g.select uid label = .ok targets ∧
    (g.carryOut s targets).1 = r ∧
    (g.carryOut s targets).2.note [.finished r.generated.length r.failed.length] = t := by
  unfold generate
  cases hs : g.select uid label with
  | error e => simp
  | ok targets =>
    simp only [Except.ok.injEq, Prod.mk.injEq, exists_eq_left']
    constructor
    · rintro ⟨rfl, rfl⟩
      exact ⟨rfl, rfl⟩
    · rintro ⟨rfl, rfl⟩
      exact ⟨rfl, rfl⟩

theorem stored_generate (h : g.generate s uid label = .ok (r, t)) : Trace.Stored s g r t.store := by
  obtain ⟨targets, hs, rfl, rfl⟩ := generate_eq_ok.1 h
  exact Trace.stored_start.foldl _ _ fun a ha => mem_allClasses_of_mem_plan hs ha

/-- **What a run stores**: every entity has an implementation of its algorithm, shared by exactly the
entities with its label, and this keeps the text if the last one of these entities has the same text. -/
theorem generate_stored (h : g.generate s uid label = .ok (r, t)) :
    (∀ e ∈ r.generated, e.implementation ∈ t.store.implementationsOf (.single e.algorithm) "" ∧
      (t.store.labelOf e.implementation = e.text ↔ (r.latest? e.label).map (·.text) = some e.text)) ∧
    ∀ e ∈ r.generated, ∀ e' ∈ r.generated, e.implementation = e'.implementation ↔ e.label = e'.label := by
  have hst := stored_generate h
  refine ⟨fun e he => ⟨?_, ?_⟩, fun e he e' he' => ?_⟩
  · obtain ⟨-, himpl, hm⟩ := hst.stored e he
    exact hm.mem_implementationsOf himpl
  · obtain ⟨e', he'⟩ := Report.latest?_of_mem he
    rw [(hst.stored e he).1, hst.latest e.label e' he', he']
    simp
  · rw [(hst.stored e he).1, (hst.stored e' he').1]
    exact Trace.implementationUid_inj

/-! ### Two algorithms with one label -/

open Hyperedge in
/-- Two algorithms are labelled `Filter`; the left one needs an image. -/
def twoFilters : Store where
  edges := vocabularyEdges ++ [
    concept "Left" "Filter",
    fact (numbered Vocabulary.isA 6) "IS-A" ["Left"] [Vocabulary.algorithm] Vocabulary.isA,
    concept "Right" "Filter",
    fact (numbered Vocabulary.isA 7) "IS-A" ["Right"] [Vocabulary.algorithm] Vocabulary.isA,
    concept "Image" "Image",
    fact (numbered Vocabulary.isA 8) "IS-A" ["Image"] [Vocabulary.input] Vocabulary.isA,
    concept "Image1" "in",
    fact (numbered Vocabulary.instanceOf 1) "INSTANCE-OF" ["Image1"] ["Image"] Vocabulary.instanceOf,
    fact (numbered Vocabulary.hasAInterface 1) "HAS-A" ["Left"] ["Image1"] Vocabulary.hasAInterface,
    fact (numbered Vocabulary.needs 1) "NEEDS" ["Left"] ["Image1"] Vocabulary.needs]
  issued _ := 0
  distinct := by decide +kernel
  tidy := by decide +kernel

theorem plan_twoFilters :
    twoFilters.plan .default (.ofList ["Left", "Right"]) = ⟨["Left", "Right"], []⟩ := by
  have hfacts : ∀ u ∈ ["Left", "Right"], (twoFilters.subAlgorithms u).toList = [] ∧
      u ∉ twoFilters.notGenerated := by decide +kernel
  have horder : ∀ u ∈ ["Left", "Right"], twoFilters.composition.order u = .ok [u] := fun u hu =>
    Digraph.order_of_next_nil ((next_composition u).trans (hfacts u hu).1)
  have hex : ∀ u ∈ ["Left", "Right"], u ∉ twoFilters.notGenerated := fun u hu => (hfacts u hu).2
  have hlist : (UidSet.ofList ["Left", "Right"]).toList = ["Left", "Right"] := by decide
  rw [plan, hlist]
  simp [Plan.addTarget, Plan.add, horder, hex, Settings.default]

theorem generate_twoFilters : ∃ r t e e', twoFilters.generate .default "" "" = .ok (r, t) ∧
    r.generated = [e, e'] ∧ e.label = e'.label ∧ e.algorithm ≠ e'.algorithm ∧ e.text ≠ e'.text := by
  have hrun : twoFilters.carryOut .default (.ofList ["Left", "Right"]) =
      ["Left", "Right"].foldl (Trace.generateNext .default (twoFilters.relevantDatatypes .default))
        (⟨[], []⟩, Trace.start twoFilters) := by
    rw [carryOut, skipped, plan_twoFilters]
    rfl
  have heval : twoFilters.select "" "" = .ok (.ofList ["Left", "Right"]) ∧
      let l := (["Left", "Right"].foldl (Trace.generateNext .default
        (twoFilters.relevantDatatypes .default)) (⟨[], []⟩, Trace.start twoFilters)).1.generated
      l.map (fun e => (e.algorithm, e.label)) = [("Left", "Filter"), ("Right", "Filter")] ∧
        (l.map (·.text)).Nodup := by decide +kernel
  rw [← hrun] at heval
  obtain ⟨hselect, hmap, htexts⟩ := heval
  obtain ⟨e, l, hl, he, hmap⟩ := List.map_eq_cons_iff.1 hmap
  obtain ⟨e', l, rfl, he', hmap⟩ := List.map_eq_cons_iff.1 hmap
  obtain rfl := List.map_eq_nil_iff.1 hmap
  simp only [Prod.mk.injEq] at he he'
  refine ⟨_, _, e, e', generate_eq_ok.2 ⟨_, hselect, rfl, rfl⟩, hl, ?_, ?_, ?_⟩
  · rw [he.2, he'.2]
  · rw [he.1, he'.1]
    decide
  · rw [hl] at htexts
    simpa using htexts

theorem generate_stored_twoFilters : ∃ r t, twoFilters.generate .default "" "" = .ok (r, t) ∧
    r.generated ≠ [] ∧
    (∀ e ∈ r.generated, e.implementation ∈ t.store.implementationsOf (.single e.algorithm) "" ∧
      (t.store.labelOf e.implementation = e.text ↔ (r.latest? e.label).map (·.text) = some e.text)) ∧
    ∀ e ∈ r.generated, ∀ e' ∈ r.generated, e.implementation = e'.implementation ↔ e.label = e'.label := by
  obtain ⟨r, t, e, e', h, hl, -⟩ := generate_twoFilters
  exact ⟨r, t, h, by simp [hl], generate_stored h⟩

/-- The text of the left one is gone after the run. -/
theorem text_lost_twoFilters : ∃ r t, twoFilters.generate .default "" "" = .ok (r, t) ∧
    ∃ e ∈ r.generated, ∃ e' ∈ r.generated, e.algorithm ≠ e'.algorithm ∧
      e.implementation = e'.implementation ∧ t.store.labelOf e.implementation ≠ e.text := by
  obtain ⟨r, t, e, e', h, hl, hlabel, halg, htext⟩ := generate_twoFilters
  have he : e ∈ r.generated := by simp [hl]
  have he' : e' ∈ r.generated := by simp [hl]
  have hst := stored_generate h
  have hlatest : r.latest? e.label = some e' := by simp [Report.latest?, hl, hlabel]
  refine ⟨r, t, h, e, he, e', he', halg, ?_, ?_⟩
  · rw [(hst.stored e he).1, (hst.stored e' he').1, hlabel]
  · rw [(hst.stored e he).1, hst.latest e.label e' hlatest]
    exact htext.symm

end Store

end DesignGraph
