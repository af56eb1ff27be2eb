import DesignGraph.Proofs.Model.Regular

/-! # Typed facts

A `Signature` says which classes the ends of the facts of a relation kind belong to, `signatures` lists
those of the vocabulary. A model is `Typed` if all its facts observe them, and `Owned` if everything that
is needed or provided is also owned as an interface.

All operations but the deep copies add facts only that observe the signatures in the store they leave
(`Conforming`), and what has been admitted once stays admitted, since the classes and instances below a
root never get fewer. The only assertion that takes two facts is that of a needed or provided interface:
what the first fact leaves admits the second, because it changes no class and no instance. -/

namespace DesignGraph

/-- What stands at an end of a fact: an instance below the root, or a class if these are admitted too. -/
structure EndType where
  root : ClassRoot
  classes : Bool
  deriving DecidableEq

/-- The ends of the facts of a relation kind. -/
structure Signature where
  relation : Uid
  source : EndType
  target : EndType
  deriving DecidableEq

/-- The signatures of the relation kinds between components, interfaces, networks and algorithms. -/
def signatures : List Signature := [
  ⟨Vocabulary.hasAInterface, ⟨.component, true⟩, ⟨.interface, false⟩⟩,
  ⟨Vocabulary.partOfNetwork, ⟨.component, false⟩, ⟨.network, true⟩⟩,
  ⟨Vocabulary.connectedTo, ⟨.interface, false⟩, ⟨.interface, false⟩⟩,
  ⟨Vocabulary.needs, ⟨.algorithm, true⟩, ⟨.input, false⟩⟩,
  ⟨Vocabulary.provides, ⟨.algorithm, true⟩, ⟨.output, false⟩⟩,
  ⟨Vocabulary.dependsOn, ⟨.input, false⟩, ⟨.output, false⟩⟩]

namespace Store

variable {f g h : Store} {r u v : Uid} {S T : List Uid}

/-- The end admits the uid. -/
def Admits (g : Store) (t : EndType) (u : Uid) : Prop :=
  u ∈ g.allMembers t.root ∨ t.classes ∧ u ∈ g.allClasses t.root

/-- All facts observe the signatures. -/
def Typed (g : Store) : Prop :=
  ∀ s ∈ signatures, ∀ S T, g.Asserts s.relation S T →
    (∀ u ∈ S, g.Admits s.source u) ∧ ∀ u ∈ T, g.Admits s.target u

/-- Whatever is needed or provided is owned as an interface. -/
def Owned (g : Store) : Prop :=
  ∀ r ∈ [Vocabulary.needs, Vocabulary.provides], ∀ a i,
    g.Leads r .forward a i → g.Leads Vocabulary.hasAInterface .forward a i

/-- A fact that may be added: it is sound, it observes the signatures, and if it needs or provides
something, that is owned. -/
structure Conforms (g : Store) (r : Uid) (S T : List Uid) : Prop where
  admissible : g.Admissible r S T
  typed : ∀ s ∈ signatures, s.relation = r →
    (∀ u ∈ S, g.Admits s.source u) ∧ ∀ u ∈ T, g.Admits s.target u
  owned : r ∈ [Vocabulary.needs, Vocabulary.provides] → ∀ a ∈ S, ∀ i ∈ T,
    g.Leads Vocabulary.hasAInterface .forward a i

/-- `h` is `g` with facts that conform in `h`. -/
def Conforming (g h : Store) : Prop := Adds h.Conforms g h

theorem Admits.mem {t : EndType} (hu : g.Admits t u) : u ∈ g := by
  rcases hu with hu | ⟨-, hu⟩
  · exact (mem_allMembers.1 hu).1
  · exact (mem_allClasses.1 hu).1

theorem Admits.mono (hgh : Extends g h) {t : EndType} (hu : g.Admits t u) : h.Admits t u := by
  rcases hu with hu | ⟨ht, hu⟩
  · exact .inl (allMembers_mono hgh hu)
  · exact .inr ⟨ht, allClasses_mono hgh hu⟩

theorem Admissible.mono (hgh : Extends g h) (hf : g.Admissible r S T) : h.Admissible r S T :=
  ⟨hf.1.mono hgh, hf.2⟩

theorem Conforms.mono (hgh : Extends g h) (hf : g.Conforms r S T) : h.Conforms r S T where
  admissible := hf.admissible.mono hgh
  typed s hs hr := by
    obtain ⟨hS, hT⟩ := hf.typed s hs hr
    exact ⟨fun u hu => (hS u hu).mono hgh, fun u hu => (hT u hu).mono hgh⟩
  owned hr a ha i hi := hgh.leads (hf.owned hr a ha i hi)

theorem Conforming.refl (g : Store) : Conforming g g := Adds.refl _ g

theorem Conforming.trans (hfg : Conforming f g) (hgh : Conforming g h) : Conforming f h :=
  (hfg.mono fun _ _ _ hf => hf.mono hgh.extends).trans hgh

theorem Conforming.regular (hgh : Conforming g h) (hg : Regular g) : Regular h :=
  hg.adds (hgh.mono fun _ _ _ hf => hf.admissible)

theorem Conforming.typed (hgh : Conforming g h) (hg : g.Typed) : h.Typed := by
  intro s hs S T hf
  rcases hgh.asserts_or hf with hf | hf
  · obtain ⟨hS, hT⟩ := hg s hs S T hf
    exact ⟨fun u hu => (hS u hu).mono hgh.extends, fun u hu => (hT u hu).mono hgh.extends⟩
  · exact hf.typed s hs rfl

theorem Conforming.owned (hgh : Conforming g h) (hg : g.Owned) : h.Owned := by
  rintro r hr a i ⟨S, T, hf, ha, hi⟩
  rcases hgh.asserts_or hf with hf | hf
  · exact hgh.extends.leads (hg r hr a i ⟨S, T, hf, ha, hi⟩)
  · exact hf.owned hr a ha i hi

/-! ### Facts without a signature -/

theorem signature_unique {s s' : Signature} (hs : s ∈ signatures) (hs' : s' ∈ signatures)
    (hr : s.relation = s'.relation) : s = s' := by
  have hall : ∀ s ∈ signatures, ∀ s' ∈ signatures, s.relation = s'.relation → s = s' := by decide
  exact hall s hs s' hs' hr

theorem relation_of_signature {s : Signature} (hs : s ∈ signatures) :
    s.relation ≠ Vocabulary.subrelationOf ∧ s.relation ≠ Vocabulary.instanceOf := by
  have hall : ∀ s ∈ signatures, s.relation ≠ Vocabulary.subrelationOf ∧
      s.relation ≠ Vocabulary.instanceOf := by decide
  exact hall s hs

/-- A fact of a kind without a signature conforms if it is sound. -/
theorem conforms_of_untyped (hr : r = Vocabulary.isA ∨ r = Vocabulary.instanceOf) (hf : g.Sound r S T) :
    g.Conforms r S T := by
  have hne : r ≠ Vocabulary.subrelationOf := by rcases hr with rfl | rfl <;> decide
  have hun : ∀ s ∈ signatures, s.relation ≠ r := by rcases hr with rfl | rfl <;> decide
  have hno : r ∉ [Vocabulary.needs, Vocabulary.provides] := by rcases hr with rfl | rfl <;> decide
  exact ⟨⟨hf, hne⟩, fun s hs he => absurd he (hun s hs), fun h => absurd h hno⟩

theorem conforming_createClass (g : Store) (root : ClassRoot) (u : Uid) (label : String)
    (superclasses : UidSet) : Conforming g (g.createClass root u label superclasses).store := by
  unfold createClass
  split
  case isFalse => exact .refl g
  rename_i hname
  have hne : u ≠ "" := by
    simp only [canNameClass, Bool.and_eq_true, bne_iff_ne] at hname
    exact hname.1
  generalize hkept : (g.sift Vocabulary.isA .superclass (root.admitted g) root.expected
    (superclasses.insert root.uid).toList).1.erase u = kept
  have hknown : ∀ c ∈ kept, c ∈ g := by
    intro c hc
    rw [← hkept, UidSet.mem_erase, sift, UidSet.mem_ofList, List.mem_filter] at hc
    have hc : c ∈ root.admitted g := by simpa using hc.1.2
    cases root <;> simp only [ClassRoot.admitted, UidSet.mem_union] at hc <;>
      first
      | exact (mem_allClasses.1 hc).1
      | exact hc.elim (fun h => (mem_allClasses.1 h).1) fun h => (mem_allClasses.1 h).1
  simp only [hkept]
  split
  · exact .refl g
  · have hcr := adds_create (fun _ _ _ => False) g u label
    have ha := adds_relateFrom (g.create u label).2 Vocabulary.isA (.single u) kept
    refine (hcr.mono fun _ _ _ => False.elim).trans (ha.mono ?_)
    rintro r S T ⟨⟨rfl, rfl, rfl⟩, hS, hT, hd⟩
    refine conforms_of_untyped (.inl rfl) ⟨ha.extends.declares hd, ⟨?_, ?_⟩, ?_, ?_⟩
    · exact fun h => hS (List.isEmpty_iff.2 h)
    · intro v hv
      rw [UidSet.mem_toList, UidSet.mem_single] at hv
      rw [hv]
      exact ha.extends.mem (mem_create hne)
    · exact fun h => hT (List.isEmpty_iff.2 h)
    · exact fun v hv => (hcr.extends.trans ha.extends).mem (hknown v hv)

theorem conforming_instantiate (g : Store) (classes : UidSet) (label : String) :
    Conforming g (g.instantiate classes label).2 := by
  by_cases hc : (g.known classes).isEmpty
  · rw [instantiate_of_isEmpty hc]
    exact .refl g
  · obtain ⟨u, h, hi, hm⟩ := exists_madeInstance g classes label hc
    rw [hi]
    refine hm.adds.mono ?_
    rintro r S T ⟨⟨rfl, rfl, rfl⟩, hd⟩
    refine conforms_of_untyped (.inr rfl) ⟨hd, ⟨by simp, by simpa using hm.stored⟩, ?_, ?_⟩
    · exact fun h => hc (List.isEmpty_iff.2 h)
    · exact fun c hc => hm.keeps.mem (mem_known.1 hc).2

/-! ### Facts between admitted endpoints -/

theorem mem_sift {relation : Uid} {role : Role} {valid : UidSet} {expected : String} {uids : List Uid} :
    u ∈ (g.sift relation role valid expected uids).1 ↔ u ∈ uids ∧ u ∈ valid := by
  simp [sift]

/-- What an assertion between admitted endpoints adds. -/
theorem adds_assertBetween (g : Store) (relation : Uid) (source target : Side)
    (sources targets : List Uid) :
    Adds (fun r S T => r = relation ∧ g.Declares r ∧ (S ≠ [] ∧ ∀ u ∈ S, u ∈ sources ∧ u ∈ source.valid) ∧
      T ≠ [] ∧ ∀ u ∈ T, u ∈ targets ∧ u ∈ target.valid) g
      (g.assertBetween relation source target sources targets).store := by
  refine (adds_relateFrom g relation _ _).mono ?_
  rintro r S T ⟨⟨rfl, rfl, rfl⟩, hS, hT, hd⟩
  exact ⟨rfl, hd, ⟨fun h => hS (List.isEmpty_iff.2 h), fun u hu => by simpa using hu⟩,
    fun h => hT (List.isEmpty_iff.2 h), fun u hu => by simpa using hu⟩

/-- What an assertion keeps on both sides it joins. -/
theorem leads_assertBetween {relation a i : Uid} {source target : Side} {sources targets : List Uid}
    (hd : g.Declares relation) (hne : relation ≠ "") (ha : a ∈ sources ∧ a ∈ source.valid)
    (hi : i ∈ targets ∧ i ∈ target.valid) :
    (g.assertBetween relation source target sources targets).store.Leads relation .forward a i := by
  have ha' : a ∈ (g.sift relation .source source.valid source.expected sources).1 := mem_sift.2 ha
  have hi' : i ∈ (g.sift relation .target target.valid target.expected targets).1 := mem_sift.2 hi
  obtain ⟨S, T, hf, hS, hT⟩ := joins_relateFrom hd hne (UidSet.isEmpty_eq_false_iff.2 ⟨a, ha'⟩)
    (UidSet.isEmpty_eq_false_iff.2 ⟨i, hi'⟩)
  exact ⟨S, T, hf, (hS a).2 ha', (hT i).2 hi'⟩

/-- A fact with both ends admitted, of a kind that has a signature, conforms if nothing is needed or
provided by it that is not owned. -/
theorem conforms_of_admits {s : Signature} (hs : s ∈ signatures) (hd : g.Declares s.relation)
    (hS : S ≠ [] ∧ ∀ u ∈ S, g.Admits s.source u) (hT : T ≠ [] ∧ ∀ u ∈ T, g.Admits s.target u)
    (howned : s.relation ∈ [Vocabulary.needs, Vocabulary.provides] → ∀ a ∈ S, ∀ i ∈ T,
      g.Leads Vocabulary.hasAInterface .forward a i) : g.Conforms s.relation S T where
  admissible := ⟨⟨hd, ⟨hS.1, fun u hu => (hS.2 u hu).mem⟩, hT.1, fun u hu => (hT.2 u hu).mem⟩,
    (relation_of_signature hs).1⟩
  typed s' hs' hrel := by
    obtain rfl := signature_unique hs hs' hrel.symm
    exact ⟨hS.2, hT.2⟩
  owned := howned

/-- An assertion with both ends admitted, of a kind that has a signature, conforms. -/
theorem conforming_assertBetween {s : Signature} (hs : s ∈ signatures)
    (hr : s.relation ∉ [Vocabulary.needs, Vocabulary.provides]) {source target : Side}
    (hsource : ∀ u ∈ source.valid, g.Admits s.source u)
    (htarget : ∀ u ∈ target.valid, g.Admits s.target u)
    (sources targets : List Uid) :
    Conforming g (g.assertBetween s.relation source target sources targets).store := by
  have ha := adds_assertBetween g s.relation source target sources targets
  refine ha.mono ?_
  rintro r S T ⟨rfl, hd, ⟨hSne, hS⟩, hTne, hT⟩
  refine Conforms.mono ha.extends (conforms_of_admits hs hd ⟨hSne, fun u hu => ?_⟩ ⟨hTne, fun u hu => ?_⟩
    fun h => absurd h hr)
  · exact hsource u (hS u hu).2
  · exact htarget u (hT u hu).2

theorem conforming_hasInterface (g : Store) (components interfaces : List Uid) :
    Conforming g (g.hasInterface components interfaces).store := by
  refine conforming_assertBetween (s := ⟨Vocabulary.hasAInterface, ⟨.component, true⟩, ⟨.interface, false⟩⟩)
    (by simp [signatures]) (by decide) (fun u hu => ?_) (fun u hu => .inl hu) components interfaces
  exact (UidSet.mem_union.1 hu).elim (fun h => .inr ⟨rfl, h⟩) .inl

theorem conforming_connectInterface (g : Store) (sources targets : List Uid) :
    Conforming g (g.connectInterface sources targets).store :=
  conforming_assertBetween (s := ⟨Vocabulary.connectedTo, ⟨.interface, false⟩, ⟨.interface, false⟩⟩)
    (by simp [signatures]) (by decide) (fun _ => .inl) (fun _ => .inl) sources targets

theorem conforming_partOfNetwork (g : Store) (components networks : List Uid) :
    Conforming g (g.partOfNetwork components networks).store := by
  refine conforming_assertBetween (s := ⟨Vocabulary.partOfNetwork, ⟨.component, false⟩, ⟨.network, true⟩⟩)
    (by simp [signatures]) (by decide) (fun _ => .inl) (fun u hu => ?_) components networks
  exact (UidSet.mem_union.1 hu).elim .inl fun h => .inr ⟨rfl, h⟩

theorem conforming_dependsOn (g : Store) (inputs outputs : List Uid) :
    Conforming g (g.dependsOn inputs outputs).store :=
  conforming_assertBetween (s := ⟨Vocabulary.dependsOn, ⟨.input, false⟩, ⟨.output, false⟩⟩)
    (by simp [signatures]) (by decide) (fun _ => .inl) (fun _ => .inl) inputs outputs

theorem conforming_exportInterfaces (g : Store) (networks : UidSet) (interfaces : List Uid) :
    Conforming g (g.exportInterfaces networks interfaces).store := by
  unfold exportInterfaces
  simp only
  split
  · exact .refl g
  · exact conforming_hasInterface g _ _

theorem conforming_realizes (g : Store) (implementations algorithms : List Uid) :
    Conforming g (g.realizes implementations algorithms).store := by
  have ha := adds_assertBetween g Vocabulary.isA (.implementationClass g) (.algorithmClass g)
    implementations algorithms
  refine ha.mono ?_
  rintro r S T ⟨rfl, hd, ⟨hSne, hS⟩, hTne, hT⟩
  refine Conforms.mono ha.extends (conforms_of_untyped (.inl rfl) ⟨hd, ⟨hSne, fun u hu => ?_⟩, hTne,
    fun u hu => ?_⟩)
  · exact (mem_allClasses.1 (hS u hu).2).1
  · exact (mem_allClasses.1 (hT u hu).2).1

/-! ### Interfaces of algorithms -/

theorem Regular.mem_classesOf (hg : Regular g) :
    v ∈ g.classesOf u ↔ g.Leads Vocabulary.instanceOf .forward u v := by
  rw [Store.mem_classesOf, hg.realizing_eq]
  simp only [UidSet.mem_single, exists_eq_left, and_iff_right_iff_imp]
  exact hg.closed.far

/-- Facts that neither make classes nor instances leave the members of a lattice as they are. -/
theorem allMembers_subset_of_adds {P : Uid → List Uid → List Uid → Prop} (hg : Regular g) (hh : Regular h)
    (hgh : Adds P g h) (hisA : ∀ S T, ¬ P Vocabulary.isA S T) (hio : ∀ S T, ¬ P Vocabulary.instanceOf S T)
    {root : ClassRoot} (hu : u ∈ h.allMembers root) : u ∈ g.allMembers root := by
  obtain ⟨-, c, hc, hcr⟩ := mem_allMembers.1 hu
  rw [hh.mem_classesOf, hgh.leads_iff hio] at hc
  rw [allClasses_eq hg.closed hgh (hg.root_mem root) hisA] at hcr
  exact mem_allMembers.2 ⟨hg.closed.near hc, c, hg.mem_classesOf.2 hc, hcr⟩

theorem Regular.root_below (hg : Regular g) {root root' : ClassRoot}
    (hr : (root, root') ∈ [(ClassRoot.algorithm, ClassRoot.component), (.algorithm, .network),
      (.softwareInterface, .interface), (.input, .interface), (.output, .interface)]) :
    root.uid ∈ g.allClasses root' := by
  refine mem_allClasses.2 ⟨hg.root_mem root, hg.root_mem root', ?_⟩
  have hinterface := hg.leads_root .softwareInterface .interface (by decide)
  simp only [List.mem_cons, Prod.mk.injEq, List.not_mem_nil, or_false] at hr
  rcases hr with ⟨rfl, rfl⟩ | ⟨rfl, rfl⟩ | ⟨rfl, rfl⟩ | ⟨rfl, rfl⟩ | ⟨rfl, rfl⟩
  · exact .head (hg.leads_root .network .component (by decide))
      (.single (hg.leads_root .algorithm .network (by decide)))
  · exact .single (hg.leads_root .algorithm .network (by decide))
  · exact .single hinterface
  · exact .head hinterface (.single (hg.leads_root .input .softwareInterface (by decide)))
  · exact .head hinterface (.single (hg.leads_root .output .softwareInterface (by decide)))

/-- An algorithm or an instance of one is admitted as a component. -/
theorem Regular.component_of_algorithm (hg : Regular g) (hu : u ∈ (Side.algorithm g).valid) :
    u ∈ (Side.component g).valid := by
  have hbelow : ClassRoot.algorithm.uid ∈ g.allClasses .component := hg.root_below (by decide)
  exact UidSet.mem_union.2 ((UidSet.mem_union.1 hu).imp (allClasses_subset hbelow) (allMembers_subset hbelow))

/-- Facts that neither make classes nor instances admit no more algorithms. -/
theorem algorithm_subset_of_adds {P : Uid → List Uid → List Uid → Prop} (hg : Regular g) (hh : Regular h)
    (hgh : Adds P g h) (hisA : ∀ S T, ¬ P Vocabulary.isA S T) (hio : ∀ S T, ¬ P Vocabulary.instanceOf S T)
    (hu : u ∈ (Side.algorithm h).valid) : u ∈ (Side.algorithm g).valid := by
  refine UidSet.mem_union.2 ((UidSet.mem_union.1 hu).imp (fun hu => ?_)
    (allMembers_subset_of_adds hg hh hgh hisA hio))
  rwa [allClasses_eq hg.closed hgh (hg.root_mem .algorithm) hisA] at hu

/-- **Interfaces of algorithms**: what is needed or provided has become an interface of the algorithm
before, so both facts conform. -/
theorem conforming_hasInterfaceAs (hg : Regular g) {s : Signature} (hs : s ∈ signatures)
    (hsource : s.source = ⟨.algorithm, true⟩) {root : ClassRoot} (htarget : s.target = ⟨root, false⟩)
    (hroot : root.uid ∈ g.allClasses .interface) {target : Side}
    (hvalid : ∀ u ∈ target.valid, u ∈ g.allMembers root) (algorithms interfaces : UidSet) :
    Conforming g (g.hasInterfaceAs s.relation target algorithms interfaces).store := by
  have h₁ := conforming_hasInterface g algorithms.toList interfaces.toList
  unfold hasInterfaceAs Outcome.andThen
  -- the second assertion is made only if the first one gave a fact
  split
  · exact h₁
  generalize hg₁ : (g.hasInterface algorithms.toList interfaces.toList).store = g₁ at h₁
  have hreg₁ := h₁.regular hg
  have hadds₁ := adds_assertBetween g Vocabulary.hasAInterface (.component g) (.interfaceInstance g)
    algorithms.toList interfaces.toList
  change Adds _ g (g.hasInterface algorithms.toList interfaces.toList).store at hadds₁
  rw [hg₁] at hadds₁
  have hisA : Vocabulary.isA ≠ Vocabulary.hasAInterface := by decide
  have hio : Vocabulary.instanceOf ≠ Vocabulary.hasAInterface := by decide
  -- an algorithm after the first assertion was a component before
  have hcomp : ∀ a ∈ (Side.algorithm g₁).valid, a ∈ (Side.component g).valid := fun a ha =>
    hg.component_of_algorithm (algorithm_subset_of_adds hg hreg₁ hadds₁ (fun _ _ h => hisA h.1)
      (fun _ _ h => hio h.1) ha)
  have hint : ∀ i ∈ target.valid, i ∈ g.allMembers .interface := fun i hi =>
    allMembers_subset hroot (hvalid i hi)
  have hadds₂ := adds_assertBetween g₁ s.relation (.algorithm g₁) target algorithms.toList
    interfaces.toList
  refine h₁.trans (hadds₂.mono ?_)
  rintro r S T ⟨rfl, hd, ⟨hSne, hS⟩, hTne, hT⟩
  refine Conforms.mono hadds₂.extends (conforms_of_admits hs hd ⟨hSne, fun u hu => ?_⟩
    ⟨hTne, fun u hu => ?_⟩ fun _ a ha i hi => ?_)
  · rw [hsource]
    exact (UidSet.mem_union.1 (hS u hu).2).elim (fun h => .inr ⟨rfl, h⟩) .inl
  · rw [htarget]
    exact .inl (allMembers_mono h₁.extends (hvalid u (hT u hu).2))
  · -- the first assertion kept both `a` and `i`
    rw [← hg₁]
    exact leads_assertBetween (hg.declares (by decide)) (by decide)
      ⟨(hS a ha).1, hcomp a (hS a ha).2⟩ ⟨(hT i hi).1, hint i (hT i hi).2⟩

theorem conforming_needsInterface (hg : Regular g) (algorithms inputs : UidSet) :
    Conforming g (g.needsInterface algorithms inputs).store :=
  conforming_hasInterfaceAs hg (s := ⟨Vocabulary.needs, ⟨.algorithm, true⟩, ⟨.input, false⟩⟩)
    (by simp [signatures]) rfl rfl (hg.root_below (by decide)) (fun _ h => h) algorithms inputs

theorem conforming_providesInterface (hg : Regular g) (algorithms outputs : UidSet) :
    Conforming g (g.providesInterface algorithms outputs).store :=
  conforming_hasInterfaceAs hg (s := ⟨Vocabulary.provides, ⟨.algorithm, true⟩, ⟨.output, false⟩⟩)
    (by simp [signatures]) rfl rfl (hg.root_below (by decide)) (fun _ h => h) algorithms outputs

end Store

end DesignGraph
