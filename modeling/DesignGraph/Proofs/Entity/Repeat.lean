import DesignGraph.Proofs.Entity.Frame
import DesignGraph.Proofs.Entity.Persist
import DesignGraph.Proofs.Model.Run

/-! # Runs do not feed back

A run stores its texts under uids that the settings reserve. On a model that uses none of these, `Hosts`
says what a run has made of it: new implementation classes, and nothing that stands in the way of others.
Then every text is stored (`Trace.persist_hosts`), and storing it again replaces a label at most
(`Trace.persist_again`). As the new classes are seen by no query that a run makes (`Sprouts`), every entity
is the one that the model itself describes (`Trace.generateNext_hosts`), and a second run gives the same
report and leaves the store as it is (`Reached.generate_again`). -/

namespace DesignGraph

open Store Entity

variable {s : Settings} {g h h' : Store} {u v a c : Uid} {name text label : String}

/-! ### Reserved uids -/

namespace Settings

/-- Texts are stored under this uid and under the uids that continue it after two colons. -/
def Reserves (s : Settings) (u : Uid) : Prop :=
  u = s.implementationUid ∨ (s.implementationUid ++ "::").toList <+: u.toList

instance (s : Settings) (u : Uid) : Decidable (s.Reserves u) :=
  inferInstanceAs (Decidable (u = s.implementationUid ∨ (s.implementationUid ++ "::").toList <+: u.toList))

theorem reserves_implementationUid : s.Reserves (Trace.implementationUid s name) := by
  refine .inr ⟨name.toList, ?_⟩
  rw [Trace.implementationUid, ← String.toList_append]

theorem implementationUid_ne_empty : Trace.implementationUid s name ≠ "" := by
  simp [Trace.implementationUid, String.append_eq_empty_iff]

theorem implementationUid_ne_host : Trace.implementationUid s name ≠ s.implementationUid := by
  intro h
  have hlen := congrArg (fun u : String => u.toList.length) h
  simp only [Trace.implementationUid, String.toList_append, List.length_append] at hlen
  have : "::".toList.length = 2 := by decide
  omega

/-- A numbered uid continues its base with digits, so it is reserved only if its base is. -/
theorem not_reserves_numbered {base : Uid} (hb : ¬ s.Reserves base) {n : Nat}
    (hn : numbered base n ≠ s.implementationUid) : ¬ s.Reserves (numbered base n) := by
  rintro (h | h)
  · exact hn h
  have hlist : (numbered base n).toList = base.toList ++ Nat.toDigits 10 n := by
    rw [numbered, String.toList_append, Nat.toString_eq_repr, Nat.toList_repr]
  rw [hlist] at h
  rcases List.prefix_or_prefix_of_prefix h (List.prefix_append base.toList _) with hp | ⟨rest, hp⟩
  · exact hb (.inr hp)
  · rw [← hp, List.prefix_append_right_inj] at h
    -- the last character of what is reserved is a colon, and no digit
    have hlast : (base.toList ++ rest).getLast? = some ':' := by
      rw [hp, String.toList_append]
      simp
    cases hr : rest.getLast? with
    | none =>
      rw [List.getLast?_eq_none_iff.1 hr, List.append_nil] at hp
      exact hb (.inr (hp ▸ List.prefix_rfl))
    | some x =>
      rw [List.getLast?_append, hr, Option.some_or] at hlast
      obtain rfl := Option.some.inj hlast
      have hdigit := Nat.isDigit_of_mem_toDigits (by decide) (by decide)
        (h.subset (List.mem_of_getLast? hr))
      exact absurd hdigit (by decide)

end Settings

/-! ### What a run makes of a model -/

namespace Store

/-- `h` is `g` with implementation classes, and whatever is reserved can still name a class. -/
structure Hosts (s : Settings) (g h : Store) : Prop where
  sprouts : Sprouts g h
  named : ∀ u ∈ h, u ∉ g → u ≠ ""
  nameable : ∀ u, s.Reserves u → u ≠ "" → h.canNameClass u

namespace Hosts

theorem start (hg : Regular g) (hfree : ∀ u ∈ g, ¬ s.Reserves u) : Hosts s g g where
  sprouts := ⟨.refl g, .refl _ g, hg⟩
  named _ hu hn := absurd hu hn
  nameable u hu hne := canNameClass_of_not_mem hne fun hmem => hfree u hmem hu

theorem grow (hh : Hosts s g h) (hkeeps : Keeps g h') (hadds : Adds (Sprout g h') h h')
    (hreg : Regular h') (hname : ∀ u ∈ h, h'.canNameClass u = h.canNameClass u)
    (hnew : ∀ u ∈ h', u ∉ h → u ≠ "" ∧ (s.Reserves u → h'.canNameClass u)) : Hosts s g h' where
  sprouts := by
    refine ⟨hkeeps, (hh.sprouts.adds.mono fun r S T hs => ?_).trans hadds, hreg⟩
    exact ⟨hs.isA, fun u hu => ⟨(hs.source u hu).1, allClasses_mono hadds.extends (hs.source u hu).2⟩,
      hs.target⟩
  named u hu hn := by
    by_cases hm : u ∈ h
    · exact hh.named u hm hn
    · exact (hnew u hu hm).1
  nameable u hu hne := by
    by_cases hm : u ∈ h
    · rw [hname u hm]
      exact hh.nameable u hu hne
    · by_cases hm' : u ∈ h'
      · exact (hnew u hm' hm).2 hu
      · exact canNameClass_of_not_mem hne hm'

variable (hg : Regular g) (hfree : ∀ u ∈ g, ¬ s.Reserves u) (hh : Hosts s g h)

include hg hfree

/-- A fact that is new takes no uid that is reserved, once the class that hosts the texts is there. -/
theorem not_reserves_fact {n : Nat} (hhost : s.implementationUid = "" ∨ s.implementationUid ∈ h)
    (hn : numbered Vocabulary.isA n ∉ h) : ¬ s.Reserves (numbered Vocabulary.isA n) := by
  refine Settings.not_reserves_numbered (hfree _ (hg.declares (by decide)).mem) fun he => ?_
  rcases hhost with hhost | hhost
  · exact numbered_ne_empty _ _ (he.trans hhost)
  · exact hn (he ▸ hhost)

include hh

/-- A class is made under a reserved uid, of known classes only below the root of the implementations. -/
theorem createClass {superclasses : UidSet} (hu : s.Reserves u) (hsup : ∀ c ∈ superclasses, c ∉ g)
    (hhost : s.implementationUid = u ∨ s.implementationUid = "" ∨ s.implementationUid ∈ h) :
    Hosts s g (h.createClass .implementation u label superclasses).store := by
  have hkeeps := keeps_createClass h .implementation u label superclasses
  have hext := extends_createClass h .implementation u label superclasses
  have hreg := (conforming_createClass h .implementation u label superclasses).regular hh.sprouts.regular
  have hd : h.Declares Vocabulary.isA := hh.sprouts.regular.declares (by decide)
  refine hh.grow (hh.sprouts.keeps.trans hkeeps) ((adds_createClass _ _ _ _ _).mono ?_) hreg
    (fun v hv => hkeeps.canNameClass hv) fun v hv hn => ?_
  · rintro r S T ⟨rfl, rfl, rfl, hname, hkept⟩
    refine ⟨rfl, fun w hw => ?_, fun c hc hcg => ?_⟩
    · obtain rfl := List.mem_singleton.1 hw
      have hsome : (h.createClass .implementation w label superclasses).result = some w :=
        createClass_isSome hd hname hkept
      have hm := (madeClass_of_createClass hsome).2
      obtain ⟨c, hc⟩ := UidSet.isEmpty_eq_false_iff.1 hkept
      exact ⟨fun hwg => hfree w hwg hu,
        hm.mem_allClasses hc (allClasses_mono hext (mem_superclassesFor.1 hc).2.1)⟩
    · rcases (mem_superclassesFor.1 hc).1 with rfl | hc
      · exact .inl rfl
      · exact absurd hcg (hsup c hc)
  · rcases mem_createClass hv with hv | ⟨rfl, hname⟩ | ⟨n, rfl⟩
    · exact absurd hv hn
    · exact ⟨ne_empty_of_canNameClass hname, fun _ => canNameClass_createClass hname⟩
    · refine ⟨numbered_ne_empty _ _, fun hres => ?_⟩
      rcases hhost with hhost | hhost
      · by_cases he : numbered Vocabulary.isA n = u
        · rw [he]
          refine canNameClass_createClass (hh.nameable u hu ?_)
          exact he ▸ numbered_ne_empty _ _
        · refine absurd hres (Settings.not_reserves_numbered (hfree _ (hg.declares (by decide)).mem) ?_)
          rwa [hhost]
      · exact absurd hres (not_reserves_fact hg hfree hhost hn)

omit hg in
theorem setLabel (hu : s.Reserves u) : Hosts s g (h.setLabel u label) := by
  have hgrow : Adds (Sprout g (h.setLabel u label)) h (h.setLabel u label) := grows_setLabel _ _ _ _
  have hkeeps : Keeps g (h.setLabel u label) := by
    intro v hv
    have hne : v ≠ u := fun he => hfree v hv (he ▸ hu)
    rw [get?_setLabel, hh.sprouts.keeps v hv]
    cases he : g.get? v with
    | none => rfl
    | some e =>
      have hr : relabel u label e = e := if_neg fun h => hne ((uid_of_get? he).symm.trans h)
      simp [hr]
  have hconf : Conforming h (h.setLabel u label) := grows_setLabel _ _ _ _
  refine hh.grow hkeeps hgrow (hconf.regular hh.sprouts.regular) (fun v hv => ?_) fun v hv hn => ?_
  · have hkind : ∀ e, (relabel u label e).kind = e.kind := fun e =>
      (Hyperedge.eq_of_bare_eq (bare_relabel u label e)).2.1
    cases he : h.get? v <;> simp [canNameClass, get?_setLabel, he, hkind]
  · obtain ⟨e, he, rfl⟩ := mem_def.1 hv
    obtain ⟨e', he', rfl⟩ := List.mem_map.1 he
    exact absurd (mem_def.2 ⟨e', he', (uid_relabel u label e').symm⟩) hn

/-- An implementation class realizes an algorithm class. -/
theorem isA (hu : s.Reserves u) (hui : u ∈ h.allClasses .implementation)
    (ha : a ∈ g.allClasses .algorithm)
    (hhost : s.implementationUid = "" ∨ s.implementationUid ∈ h) :
    Hosts s g (h.isA (.single u) (.single a)).2 := by
  have hadds := adds_relateFrom h Vocabulary.isA (.single u) (.single a)
  have hkeeps := keeps_relateFrom h Vocabulary.isA (.single u) (.single a)
  have hreg : Regular (h.isA (.single u) (.single a)).2 := by
    have hconf := conforming_realizes h [u] [a]
    rw [realizes_eq hui (allClasses_mono hh.sprouts.extends_ ha)] at hconf
    exact hconf.regular hh.sprouts.regular
  refine hh.grow (hh.sprouts.keeps.trans hkeeps) (hadds.mono ?_) hreg
    (fun v hv => hkeeps.canNameClass hv) fun v hv hn => ?_
  · rintro r S T ⟨⟨rfl, rfl, rfl⟩, -⟩
    refine ⟨rfl, fun w hw => ?_, fun c hc hcg => ?_⟩
    · obtain rfl := UidSet.mem_single.1 hw
      exact ⟨fun hwg => hfree w hwg hu, allClasses_mono hadds.extends hui⟩
    · obtain rfl := UidSet.mem_single.1 hc
      exact .inr ha
  · rcases mem_relateFrom hv with hv | ⟨n, rfl⟩
    · exact absurd hv hn
    · exact ⟨numbered_ne_empty _ _, fun hres => absurd hres (not_reserves_fact hg hfree hhost hn)⟩

end Hosts
end Store

namespace Entity.Trace

open Store

variable {t : Trace} {relevant : UidSet}

/-- The superclasses of the class that holds a text. -/
def hosts (s : Settings) : UidSet :=
  if s.implementationUid = "" then .single ClassRoot.implementation.uid
  else .ofList [ClassRoot.implementation.uid, s.implementationUid]

theorem mem_hosts : c ∈ hosts s ↔ c = ClassRoot.implementation.uid ∨
    c = s.implementationUid ∧ s.implementationUid ≠ "" := by
  unfold hosts
  split <;> simp_all

/-- All that storing a text leaves, apart from the text. -/
structure Holds (s : Settings) (h : Store) (a : Uid) (name : String) : Prop where
  host : s.implementationUid ≠ "" →
    MadeClass h s.implementationUid (.single ClassRoot.implementation.uid)
  holder : MadeClass h (implementationUid s name) (hosts s)
  realizes : MadeClass h (implementationUid s name) (.single a)

theorem Holds.mono (hext : Extends h h') (hh : Holds s h a name) : Holds s h' a name :=
  ⟨fun hne => (hh.host hne).mono hext, hh.holder.mono hext, hh.realizes.mono hext⟩

variable (hg : Regular g) (hfree : ∀ u ∈ g, ¬ s.Reserves u) (hh : Hosts s g h)

section steps

include hg hfree hh

theorem superclassesFor_host : h.superclassesFor .implementation s.implementationUid ∅ =
    .single ClassRoot.implementation.uid := by
  have hr : ClassRoot.implementation.uid ∈ g := hg.root_mem .implementation
  refine UidSet.ext fun c => ?_
  rw [mem_superclassesFor, UidSet.mem_single]
  constructor
  · rintro ⟨hc | hc, -⟩
    · exact hc
    · exact absurd hc (UidSet.not_mem_empty c)
  · rintro rfl
    refine ⟨.inl rfl, ?_, fun he => hfree _ hr (.inl he)⟩
    exact mem_allClasses.2 ⟨hh.sprouts.extends_.mem hr, hh.sprouts.extends_.mem hr, .refl⟩

theorem host_spec : Hosts s g (host s h).store ∧ (s.implementationUid ≠ "" →
    MadeClass (host s h).store s.implementationUid (.single ClassRoot.implementation.uid)) := by
  refine ⟨hh.createClass hg hfree (.inl rfl) (by simp) (.inl rfl), fun hne => ?_⟩
  have hkept := superclassesFor_host hg hfree hh
  have hd : h.Declares Vocabulary.isA := hh.sprouts.regular.declares (by decide)
  have hsome : (host s h).result = some s.implementationUid :=
    createClass_isSome hd (hh.nameable _ (.inl rfl) hne) (hkept ▸ UidSet.not_isEmpty_single _)
  have hm := (madeClass_of_createClass hsome).2
  rw [hkept] at hm
  exact hm

theorem superclassesFor_holder (name : String) (hmade : s.implementationUid ≠ "" →
    MadeClass h s.implementationUid (.single ClassRoot.implementation.uid)) :
    h.superclassesFor .implementation (implementationUid s name) (.single s.implementationUid) =
      hosts s := by
  have hr : ClassRoot.implementation.uid ∈ g := hg.root_mem .implementation
  have hroot : ClassRoot.implementation.uid ∈ h.allClasses .implementation :=
    mem_allClasses.2 ⟨hh.sprouts.extends_.mem hr, hh.sprouts.extends_.mem hr, .refl⟩
  refine UidSet.ext fun c => ?_
  rw [mem_superclassesFor, UidSet.mem_single, mem_hosts]
  constructor
  · rintro ⟨rfl | rfl, hc, -⟩
    · exact .inl rfl
    · have hnew : s.implementationUid ∉ g := fun hm => hfree _ hm (.inl rfl)
      exact .inr ⟨rfl, hh.named _ (mem_allClasses.1 hc).1 hnew⟩
  · rintro (rfl | ⟨rfl, hne⟩)
    · exact ⟨.inl rfl, hroot, fun he => hfree _ hr (he ▸ Settings.reserves_implementationUid)⟩
    · exact ⟨.inr rfl, (hmade hne).mem_allClasses (UidSet.mem_single.2 rfl) hroot,
        Settings.implementationUid_ne_host.symm⟩

theorem holder_spec (name text : String) : Hosts s g (holder s h name text).store ∧
    (holder s h name text).result = some (implementationUid s name) ∧
    MadeClass (holder s h name text).store (implementationUid s name) (hosts s) ∧
    (s.implementationUid ≠ "" →
      MadeClass (holder s h name text).store s.implementationUid
        (.single ClassRoot.implementation.uid)) := by
  obtain ⟨hh₁, hmade⟩ := host_spec hg hfree hh
  have hkept := superclassesFor_holder hg hfree hh₁ name hmade
  have hnew : s.implementationUid ∉ g := fun hm => hfree _ hm (.inl rfl)
  have hhost : s.implementationUid = "" ∨ s.implementationUid ∈ (host s h).store := by
    by_cases hne : s.implementationUid = ""
    · exact .inl hne
    · exact .inr (hmade hne).stored
  have hhosts : ¬ (hosts s).isEmpty := UidSet.isEmpty_eq_false_iff.2 ⟨_, mem_hosts.2 (.inl rfl)⟩
  have hsome : (holder s h name text).result = some (implementationUid s name) :=
    createClass_isSome (hh₁.sprouts.regular.declares (by decide))
      (hh₁.nameable _ Settings.reserves_implementationUid Settings.implementationUid_ne_empty)
      (hkept ▸ hhosts)
  refine ⟨?_, hsome, ?_, fun hne => (hmade hne).mono (extends_createClass _ _ _ _ _)⟩
  · refine hh₁.createClass hg hfree Settings.reserves_implementationUid (fun c hc => ?_) (.inr hhost)
    rwa [UidSet.mem_single.1 hc]
  · have hm := (madeClass_of_createClass hsome).2
    rwa [hkept] at hm

end steps

include hg hfree

/-- **Storing a text** for an algorithm class succeeds, and leaves what it takes to store it again. -/
theorem persist_hosts (name text : String) (hh : Hosts s g t.store) (ha : a ∈ g.allClasses .algorithm) :
    (persist s t a name text).1 = .ok (implementationUid s name) ∧
      Hosts s g (persist s t a name text).2.store ∧
      Holds s (persist s t a name text).2.store a name := by
  obtain ⟨hh₂, hsome, hholder, hmade⟩ := holder_spec hg hfree hh name text
  have hat := allClasses_mono hh.sprouts.extends_ ha
  obtain ⟨hok, hstore⟩ := persist_of_some hsome hat
  have hh₃ : Hosts s g (labelled s t.store name text) :=
    hh₂.setLabel hfree Settings.reserves_implementationUid
  have hlabel := extends_labelled s t.store name text
  have himpl := allClasses_mono hlabel (madeClass_holder hsome).2
  have hhost : s.implementationUid = "" ∨ s.implementationUid ∈ labelled s t.store name text := by
    by_cases hne : s.implementationUid = ""
    · exact .inl hne
    · exact .inr (hlabel.mem (hmade hne).stored)
  have hh₄ := hh₃.isA hg hfree Settings.reserves_implementationUid himpl ha hhost
  have hspec := persist_spec s t name text hat
  have hext : Extends (holder s t.store name text).store (persist s t a name text).2.store := by
    rw [hstore]
    exact hlabel.trans (adds_relateFrom _ _ _ _).extends
  refine ⟨hok, hstore ▸ hh₄, fun hne => (hmade hne).mono hext, hholder.mono hext, ?_⟩
  rcases hspec with ⟨⟨f, hf⟩, -⟩ | ⟨-, hstores⟩
  · rw [hok] at hf
    cases hf
  · exact hstores.realizes

/-- **Storing a text again** replaces the label and changes nothing else. -/
theorem persist_again (name text : String) (hh : Hosts s g t.store) (ha : a ∈ g.allClasses .algorithm)
    (hholds : Holds s t.store a name) :
    (persist s t a name text).2.store = t.store.setLabel (implementationUid s name) text := by
  have hhost : (host s t.store).store = t.store := by
    by_cases hne : s.implementationUid = ""
    · rw [host, hne]
      exact createClass_empty
    · refine createClass_again ?_
      rw [superclassesFor_host hg hfree hh]
      exact hholds.host hne
  have hholder : (holder s t.store name text).store = t.store := by
    rw [holder, hhost]
    refine createClass_again ?_
    rw [superclassesFor_holder hg hfree hh name hholds.host]
    exact hholds.holder
  obtain ⟨-, hsome, -⟩ := holder_spec hg hfree hh name text
  obtain ⟨-, hstore⟩ := persist_of_some hsome (allClasses_mono hh.sprouts.extends_ ha)
  have hlabel : labelled s t.store name text = t.store.setLabel (implementationUid s name) text := by
    rw [labelled, hholder]
  have hext : Extends t.store (labelled s t.store name text) := hlabel ▸ grows_setLabel _ _ _ _
  have hm := hholds.realizes.mono hext
  obtain ⟨f, hf⟩ := relateFrom_of_joins hm.declared (UidSet.not_isEmpty_single _) hm.nonempty hm.below
  rw [hstore, isA, hf, hlabel]

end Entity.Trace

/-! ### Runs -/

namespace Store

/-- The entity of an algorithm, as the model says. -/
def entityOf (g : Store) (s : Settings) (relevant : UidSet) (a : Uid) : Generated where
  algorithm := a
  label := g.labelOf a
  implementation := Trace.implementationUid s (g.labelOf a)
  text := g.render s relevant a
  parts := (g.partsOf a).toList

end Store

namespace Entity.Trace

open Store

variable {t : Trace} {relevant : UidSet} (hg : Regular g) (hfree : ∀ u ∈ g, ¬ s.Reserves u)
  (hrel : ∀ u ∈ relevant, u ∈ g)

include hg hfree hrel

/-- **The step**: the entity is that of the model `g`, whatever was stored before. -/
theorem generateNext_hosts {r : Report} (hh : Hosts s g t.store) (ha : a ∈ g.allClasses .algorithm) :
    (generateNext s relevant (r, t) a).1 =
        ⟨r.generated ++ [g.entityOf s relevant a], r.failed⟩ ∧
      Hosts s g (generateNext s relevant (r, t) a).2.store ∧
      Holds s (generateNext s relevant (r, t) a).2.store a (g.labelOf a) ∧
      (Holds s t.store a (g.labelOf a) → (generateNext s relevant (r, t) a).2.store =
        t.store.setLabel (implementationUid s (g.labelOf a)) (g.render s relevant a)) := by
  have hag : a ∈ g := (mem_allClasses.1 ha).1
  have hmem : a ∈ t.store := hh.sprouts.extends_.mem hag
  have hname : (t.store.context a).name = g.labelOf a := hh.sprouts.keeps.labelOf hag
  have htext : (t.store.design s relevant (t.store.context a)).text = g.render s relevant a :=
    hh.sprouts.render_eq hg hrel hag
  have hparts : (t.store.context a).parts = g.partsOf a := hh.sprouts.partsOf_eq hg a
  have hnote : Hosts s g (t.note (t.store.typeNotices relevant (t.store.context a))).store := hh
  obtain ⟨hok, hhosts, hholds⟩ :=
    persist_hosts hg hfree (g.labelOf a) (g.render s relevant a) hnote ha
  have hagain := persist_again hg hfree (g.labelOf a) (g.render s relevant a) hnote ha
  unfold generateNext generateEntity
  simp only [if_neg (not_not_intro hmem), hname, htext, hparts]
  generalize persist s (t.note (t.store.typeNotices relevant (t.store.context a))) a (g.labelOf a)
    (g.render s relevant a) = p at hok hhosts hholds hagain ⊢
  obtain ⟨result, t'⟩ := p
  obtain rfl : result = _ := hok
  exact ⟨rfl, hhosts, hholds, hagain⟩

theorem foldl_hosts (l : List Uid) : ∀ state : Report × Trace, Hosts s g state.2.store →
    (∀ a ∈ l, a ∈ g.allClasses .algorithm) →
    (l.foldl (generateNext s relevant) state).1 =
        ⟨state.1.generated ++ l.map (g.entityOf s relevant), state.1.failed⟩ ∧
      Hosts s g (l.foldl (generateNext s relevant) state).2.store ∧
      (∀ a ∈ l, Holds s (l.foldl (generateNext s relevant) state).2.store a (g.labelOf a)) ∧
      ((∀ a ∈ l, Holds s state.2.store a (g.labelOf a)) →
        (l.foldl (generateNext s relevant) state).2.store.edges.map Hyperedge.bare =
          state.2.store.edges.map Hyperedge.bare) := by
  induction l with
  | nil => exact fun state hh _ => ⟨by simp, hh, by simp, fun _ => rfl⟩
  | cons a l ih =>
    rintro ⟨r, t⟩ hh hl
    obtain ⟨ha, hl⟩ := List.forall_mem_cons.1 hl
    obtain ⟨hr, hh', hholds, hagain⟩ := generateNext_hosts hg hfree hrel hh ha (r := r)
    obtain ⟨hr', hend, hall, hbare⟩ := ih (generateNext s relevant (r, t) a) hh' hl
    have hext : Extends t.store (generateNext s relevant (r, t) a).2.store :=
      (conforming_generateNext s relevant (r, t) a).extends
    rw [List.foldl_cons]
    refine ⟨?_, hend, List.forall_mem_cons.2 ⟨hholds.mono ?_, hall⟩, fun hold => ?_⟩
    · rw [hr', hr]
      simp
    · exact (conforming_foldl_generateNext s relevant l _).extends
    · obtain ⟨hold₁, hold₂⟩ := List.forall_mem_cons.1 hold
      rw [hbare fun b hb => (hold₂ b hb).mono hext, hagain hold₁, map_bare_setLabel]

end Entity.Trace

namespace Store

variable {targets : UidSet} {uid : String} {r : Report} {t : Trace}

/-- Stores with the same edges up to labels are the same up to the numbers handed out if the labels are. -/
theorem edges_eq_of_labelOf (hb : h.edges.map Hyperedge.bare = g.edges.map Hyperedge.bare)
    (hl : ∀ u ∈ g, h.labelOf u = g.labelOf u) : h.edges = g.edges := by
  have hlen : h.edges.length = g.edges.length := by simpa using congrArg List.length hb
  refine List.ext_getElem hlen fun i hi hi' => ?_
  have hbare : h.edges[i].bare = g.edges[i].bare := by
    have := congrArg (fun l => l[i]?) hb
    simpa [hi, hi'] using this
  have hlabel : ∀ f : Store, ∀ e ∈ f.edges, f.labelOf e.uid = e.label := fun f e he => by
    rw [labelOf, get?_of_mem he]
    rfl
  have hu := (Hyperedge.eq_of_bare_eq hbare).1
  have hsame : h.edges[i].label = g.edges[i].label := by
    rw [← hlabel h _ (List.getElem_mem hi), ← hlabel g _ (List.getElem_mem hi'), hu]
    exact hl _ (mem_def.2 ⟨_, List.getElem_mem hi', rfl⟩)
  have heta : ∀ e e' : Hyperedge, e.bare = e'.bare → e.label = e'.label → e = e' := by
    rintro ⟨⟩ ⟨⟩ hb hl
    simp only [Hyperedge.bare, Hyperedge.mk.injEq] at hb hl ⊢
    simp_all
  exact heta _ _ hbare hsame

theorem mem_of_mem_relevantDatatypes (hu : u ∈ g.relevantDatatypes s) : u ∈ g :=
  (mem_allClasses.1 (mem_allClasses_of_mem_relevantDatatypes hu)).1

section again

variable (hg : Regular g) (hfree : ∀ u ∈ g, ¬ s.Reserves u)
  (hselect : g.select uid label = .ok targets)

include hg hfree hselect

/-- A plan that is carried out gives the entities that the model says, and leaves what they need. -/
theorem carryOut_hosts :
    (g.carryOut s targets).1 =
        ⟨(g.plan s targets).order.map (g.entityOf s (g.relevantDatatypes s)), g.skipped s targets⟩ ∧
      Hosts s g (g.carryOut s targets).2.store ∧
      ∀ a ∈ (g.plan s targets).order, Trace.Holds s (g.carryOut s targets).2.store a (g.labelOf a) := by
  have hplan : ∀ a ∈ (g.plan s targets).order, a ∈ g.allClasses .algorithm := fun a ha =>
    mem_allClasses_of_mem_plan hselect ha
  obtain ⟨hr, hh, hholds, -⟩ := Trace.foldl_hosts hg hfree (fun _ => mem_of_mem_relevantDatatypes)
    (g.plan s targets).order
    (⟨[], g.skipped s targets⟩, (Trace.start g).note ((g.skipped s targets).map fun c => .skipped c.1 c.2))
    (Hosts.start hg hfree) hplan
  exact ⟨hr, hh, hholds⟩

/-- Carried out once more, a plan gives the same and changes labels at most. -/
theorem carryOut_again (hh : Hosts s g h) (hpure : g.PureDatatypes)
    (hholds : ∀ a ∈ (g.plan s targets).order, Trace.Holds s h a (g.labelOf a)) :
    (h.carryOut s targets).1 = (g.carryOut s targets).1 ∧
      (h.carryOut s targets).2.store.edges.map Hyperedge.bare = h.edges.map Hyperedge.bare := by
  have hplan : ∀ a ∈ (g.plan s targets).order, a ∈ g.allClasses .algorithm := fun a ha =>
    mem_allClasses_of_mem_plan hselect ha
  have htargets : ∀ a ∈ targets, a ∈ g := fun a ha =>
    (mem_allClasses.1 (mem_allClasses_of_mem_classes
      (UidSet.mem_diff.1 (mem_candidates_of_select hselect ha)).1)).1
  have hplanEq := hh.sprouts.plan_eq hg s htargets
  have hskipped : h.skipped s targets = g.skipped s targets := by rw [skipped, skipped, hplanEq]
  obtain ⟨hr, -, -, hbare⟩ := Trace.foldl_hosts hg hfree (fun _ => mem_of_mem_relevantDatatypes)
    (g.plan s targets).order
    (⟨[], g.skipped s targets⟩, (Trace.start h).note ((g.skipped s targets).map fun c => .skipped c.1 c.2))
    hh hplan
  rw [(carryOut_hosts hg hfree hselect).1, carryOut, hplanEq, hskipped,
    hh.sprouts.relevantDatatypes_eq hg hpure]
  exact ⟨hr, hbare hholds⟩

end again

end Store

namespace Reached

/-- **Runs do not feed back** into the models that they are made on: every text is the one that the model
itself renders, the candidates stay what they are, and the same run once more gives the same report and
leaves the store as it is. -/
theorem generate_again {targets : UidSet} {uid : String} (hg : Reached Operation.Modelling g)
    (hfree : ∀ u ∈ g, ¬ s.Reserves u) (hpure : g.PureDatatypes)
    (hselect : g.select uid label = .ok targets) :
    ∃ r t t', g.generate s uid label = .ok (r, t) ∧
      (∀ e ∈ r.generated, e.text = g.render s (g.relevantDatatypes s) e.algorithm) ∧
      (∀ l, t.store.candidates l = g.candidates l) ∧
      t.store.generate s uid label = .ok (r, t') ∧ t'.store.edges = t.store.edges := by
  have hreg := hg.regular
  obtain ⟨hr, hh, hholds⟩ := carryOut_hosts hreg hfree hselect
  obtain ⟨hr', hbare⟩ := carryOut_again hreg hfree hselect hh hpure hholds
  have hselect' : (g.carryOut s targets).2.store.select uid label = .ok targets := by
    rw [hh.sprouts.select_eq hreg, hselect]
  have hfirst := (generate_eq_ok (s := s)).2 ⟨targets, hselect, rfl, rfl⟩
  have hsecond := (generate_eq_ok (s := s)).2 ⟨targets, hselect', hr', rfl⟩
  refine ⟨_, _, _, hfirst, fun e he => ?_, hh.sprouts.candidates_eq hreg, hsecond, ?_⟩
  · rw [hr] at he
    obtain ⟨a, -, rfl⟩ := List.mem_map.1 he
    rfl
  · -- the texts stored last are the same, and no other label changes
    have hst := stored_generate hfirst
    have hst' := stored_generate hsecond
    refine edges_eq_of_labelOf hbare fun u hu => ?_
    by_cases hex : ∃ e ∈ (g.carryOut s targets).1.generated, u = e.implementation
    · obtain ⟨e, he, rfl⟩ := hex
      obtain ⟨e', he'⟩ := Report.latest?_of_mem he
      rw [(hst.stored e he).1]
      exact (hst'.latest e.label e' he').trans (hst.latest e.label e' he').symm
    · exact hst'.others u hu fun e he hue => hex ⟨e, he, hue⟩

/-- An algorithm of one part, which is an instance of another algorithm. Both read the same image of bytes, and
the part writes one as well. -/
def scalerOfBytes : List Operation := [
  .createClass .algorithm "Scale" "Scale" ∅,
  .createClass .algorithm "Filter" "Filter" ∅,
  .createClass .input "Image" "Image" ∅,
  .createClass .output "Result" "Image" ∅,
  .createClass .datatype "Byte" "byte" (.ofList ["Image", "Result"]),
  .instantiate (.single "Filter") "filter",
  .instantiate (.single "Image") "raw",
  .instantiate (.single "Result") "smooth",
  .needsInterface (.ofList ["Filter1", "Scale"]) (.single "Image1"),
  .providesInterface (.single "Filter1") (.single "Result1"),
  .partOfNetwork ["Filter1"] ["Scale"]]

/-- Settings for texts that are kept apart, and for parts as well. -/
def archived : Settings :=
  { Settings.default with implementationUid := "Archive", recursive := true, typeSuffix := "_t" }

theorem generate_again_scalerOfBytes :
    let g := scalerOfBytes.foldl Operation.apply Store.blank
    (g.select "" "Scale" = .ok (.single "Scale") ∧ "Filter" ∈ g.subAlgorithms "Scale" ∧
        "Byte" ∈ g.relevantDatatypes archived) ∧
      ∃ r t t', g.generate archived "" "Scale" = .ok (r, t) ∧
        (∀ e ∈ r.generated, e.text = g.render archived (g.relevantDatatypes archived) e.algorithm) ∧
        (∀ l, t.store.candidates l = g.candidates l) ∧
        t.store.generate archived "" "Scale" = .ok (r, t') ∧ t'.store.edges = t.store.edges := by
  have hg : Reached Operation.Modelling (scalerOfBytes.foldl Operation.apply Store.blank) :=
    Reached.blank.foldl (by simp [scalerOfBytes, Operation.Modelling])
  have heval : let g := scalerOfBytes.foldl Operation.apply Store.blank
      (g.select "" "Scale" = .ok (.single "Scale") ∧ "Filter" ∈ g.subAlgorithms "Scale" ∧
        "Byte" ∈ g.relevantDatatypes archived) ∧
        (∀ u ∈ g.uidList, ¬ archived.Reserves u) ∧ ClassRoot.implementation.uid ∉ g.allClasses .datatype ∧
        ∀ a ∈ (g.allClasses .algorithm).toList, a ∉ g.allClasses .datatype := by decide +kernel
  obtain ⟨hrun, hfree, himpl, halg⟩ := heval
  exact ⟨hrun, generate_again hg hfree ⟨himpl, halg⟩ hrun.1⟩

end Reached

end DesignGraph
