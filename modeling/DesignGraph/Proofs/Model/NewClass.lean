import DesignGraph.Proofs.Model.Sift

/-! # Classes are made once, or not at all

A class is refused, and then nothing is stored, or it is made (`NewClass`): then it is a concept, it is found
by the query that belongs to its root, and it lies below every given superclass that the root admits. The
facts that are stored tell which superclasses these are (`Store.AdmitsSuperclass`) and whether the class is
refused (`Store.RefusesClass`).

Making the same class again sifts the same superclasses by a lattice that the first call may have enlarged:
it then holds the class and all that lies below it (`Store.Regular.admitsSuperclass_createClass`).

* `Reached.createClass_all_or_nothing`: what making a class answers and stores.
* `Reached.createClass_again_iff`: when making it again changes nothing. -/

namespace DesignGraph

open Relation Store

namespace ClassRoot

/-- The lattices whose classes are admitted as superclasses of a class below the root. -/
def lattices : ClassRoot → List ClassRoot
  | softwareInterface => [interface]
  | input => [interface]
  | output => [interface]
  | datatype => [datatype, interface]
  | root => [root]

/-- The lattice in which the query for the classes below the root looks. -/
def queried : ClassRoot → ClassRoot
  | softwareInterface => interface
  | root => root

end ClassRoot

namespace Store

variable {g h : Store} {root : ClassRoot} {u v c : Uid} {label : String} {superclasses : UidSet}

/-- Facts lead from `u` up to `c`, in any number of steps. -/
def IsBelow (g : Store) (u c : Uid) : Prop := ReflTransGen (g.Leads Vocabulary.isA .forward) u c

/-- The root admits `c` as a superclass of the classes made below it. -/
def AdmitsSuperclass (g : Store) (root : ClassRoot) (c : Uid) : Prop := ∃ l ∈ root.lattices, g.IsClass l c

/-- A class is refused under an empty uid, under the uid of something that is no concept, and at the root
itself if no other superclass is admitted. -/
def RefusesClass (g : Store) (root : ClassRoot) (u : Uid) (superclasses : UidSet) : Prop :=
  u = "" ∨ (∃ e ∈ g.edges, e.uid = u ∧ e.kind ≠ .concept) ∨
    u = root.uid ∧ ∀ c ∈ superclasses, g.AdmitsSuperclass root c → c = u

/-- What there is of a class that was made, and all that was stored for it. -/
structure NewClass (g : Store) (root : ClassRoot) (u : Uid) (label : String) (superclasses : UidSet)
    (h : Store) : Prop where
  concept : ∃ e ∈ h.edges, e.uid = u ∧ e.kind = .concept
  found : u ∈ h.allClasses root.queried
  below : ∀ c ∈ superclasses, g.AdmitsSuperclass root c → h.IsBelow u c
  /-- Nothing is stored but the concept and a fact that it lies below its superclasses. -/
  appended : ∃ es, h.edges = g.edges ++ es ∧ ∀ e ∈ es, e = .concept u label ∨
    e.IsFactOf Vocabulary.isA [u] (g.superclassesFor root u superclasses).toList

/-! ### What is admitted -/

theorem IsBelow.mono (hgh : Extends g h) (hb : g.IsBelow u c) : h.IsBelow u c :=
  hb.lift id fun _ _ => hgh.leads

theorem IsClass.of_isBelow (hu : u ∈ g) (hb : g.IsBelow u c) (hc : g.IsClass root c) : g.IsClass root u :=
  ⟨hu, hb.trans hc.2⟩

theorem AdmitsSuperclass.of_isBelow (hu : u ∈ g) (hb : g.IsBelow u c) (hc : g.AdmitsSuperclass root c) :
    g.AdmitsSuperclass root u := by
  obtain ⟨l, hl, hcl⟩ := hc
  exact ⟨l, hl, hcl.of_isBelow hu hb⟩

theorem AdmitsSuperclass.mono (hgh : Extends g h) (hc : g.AdmitsSuperclass root c) :
    h.AdmitsSuperclass root c := by
  obtain ⟨l, hl, hcg, hb⟩ := hc
  exact ⟨l, hl, hgh.mem hcg, IsBelow.mono hgh hb⟩

theorem Regular.mem_admitted_iff (hg : Regular g) : c ∈ root.admitted g ↔ g.AdmitsSuperclass root c := by
  cases root <;> simp [ClassRoot.admitted, ClassRoot.lattices, AdmitsSuperclass, hg.mem_allClasses_iff]

/-- Every root is admitted below itself, and lies in the lattice that is queried for it. -/
theorem Regular.admits_root (hg : Regular g) (root : ClassRoot) :
    g.AdmitsSuperclass root root.uid ∧ root.uid ∈ g.allClasses root.queried := by
  have hself : ∀ l : ClassRoot, l.uid ∈ g.allClasses l := fun l =>
    mem_allClasses.2 ⟨hg.root_mem l, hg.root_mem l, .refl⟩
  have hlattice : ∃ l ∈ root.lattices, root.uid ∈ g.allClasses l := by
    cases root with
    | softwareInterface => exact ⟨.interface, by decide, hg.root_below (by decide)⟩
    | input => exact ⟨.interface, by decide, hg.root_below (by decide)⟩
    | output => exact ⟨.interface, by decide, hg.root_below (by decide)⟩
    | datatype => exact ⟨.datatype, by decide, hself _⟩
    | _ => exact ⟨_, List.mem_singleton_self _, hself _⟩
  obtain ⟨l, hl, hadmitted⟩ := hlattice
  refine ⟨⟨l, hl, hg.mem_allClasses_iff.1 hadmitted⟩, ?_⟩
  cases root with
  | softwareInterface => exact hg.root_below (by decide)
  | _ => exact hself _

theorem Regular.mem_superclassesFor_iff (hg : Regular g) : c ∈ g.superclassesFor root u superclasses ↔
    (c = root.uid ∨ c ∈ superclasses) ∧ g.AdmitsSuperclass root c ∧ c ≠ u := by
  rw [mem_superclassesFor, hg.mem_admitted_iff]

/-! ### What is refused -/

theorem canNameClass_iff :
    g.canNameClass u ↔ u ≠ "" ∧ ∀ e ∈ g.edges, e.uid = u → e.kind = .concept := by
  rw [canNameClass, Bool.and_eq_true, bne_iff_ne, Option.all_eq_true]
  refine and_congr_right fun _ => ⟨fun h e he hu => ?_, fun h e he => ?_⟩
  · subst hu
    simpa using h e (get?_of_mem he)
  · simpa using h e (mem_of_get? he) (uid_of_get? he)

theorem Regular.isEmpty_superclassesFor_iff (hg : Regular g) :
    (g.superclassesFor root u superclasses).isEmpty ↔
      u = root.uid ∧ ∀ c ∈ superclasses, g.AdmitsSuperclass root c → c = u := by
  rw [← not_iff_not, UidSet.isEmpty_eq_false_iff]
  simp only [hg.mem_superclassesFor_iff]
  constructor
  · rintro ⟨c, rfl | hc, hadmits, hne⟩ ⟨rfl, hall⟩
    · exact hne rfl
    · exact hne (hall c hc hadmits)
  · intro hnot
    by_cases hu : u = root.uid
    · have hexists : ¬ ∀ c ∈ superclasses, g.AdmitsSuperclass root c → c = u := fun hall => hnot ⟨hu, hall⟩
      push Not at hexists
      obtain ⟨c, hc, hadmits, hne⟩ := hexists
      exact ⟨c, .inr hc, hadmits, hne⟩
    · exact ⟨root.uid, .inl rfl, (hg.admits_root root).1, Ne.symm hu⟩

theorem Regular.refusesClass_iff (hg : Regular g) : g.RefusesClass root u superclasses ↔
    ¬ g.canNameClass u ∨ (g.superclassesFor root u superclasses).isEmpty := by
  rw [hg.isEmpty_superclassesFor_iff, canNameClass_iff, RefusesClass, ← or_assoc]
  refine or_congr_left ?_
  push Not
  tauto

theorem Regular.canNameClass_of_not_refuses (hg : Regular g) (hmade : ¬ g.RefusesClass root u superclasses) :
    g.canNameClass u := by
  by_contra hname
  exact hmade (hg.refusesClass_iff.2 (.inl hname))

/-- **A class is refused or made**, and one that is refused leaves the store as it is. -/
theorem Regular.createClass_cases (hg : Regular g) (root : ClassRoot) (u : Uid) (label : String)
    (superclasses : UidSet) :
    let made := g.createClass root u label superclasses
    g.RefusesClass root u superclasses ∧ made.result = none ∧ made.store = g ∨
      ¬ g.RefusesClass root u superclasses ∧ made.result = some u ∧
        MadeClass made.store u (g.superclassesFor root u superclasses) := by
  intro made
  rw [hg.refusesClass_iff]
  by_cases hrefused : ¬ g.canNameClass u ∨ (g.superclassesFor root u superclasses).isEmpty
  · rcases Store.createClass_cases g root u label superclasses with ⟨hr, hs, -⟩ | ⟨hname, hkept, -⟩
    · exact .inl ⟨hrefused, hr, hs⟩
    · exact absurd hrefused (by simp [hname, hkept])
  · have hresult : made.result = some u :=
      createClass_isSome (hg.declares (by decide)) (by simpa using (not_or.1 hrefused).1) (not_or.1 hrefused).2
    exact .inr ⟨hrefused, hresult, (madeClass_of_createClass hresult).2⟩

/-! ### What is made -/

theorem edges_create (hne : u ≠ "") :
    (g.create u label).2.edges = g.edges ++ if u ∈ g then [] else [.concept u label] := by
  rw [create, if_neg hne]
  by_cases hu : u ∈ g
  · rw [edges_insert_of_mem (e := .concept u label) hu, if_pos hu, List.append_nil]
  · rw [edges_insert_of_not_mem (e := .concept u label) hu, if_neg hu]
    rfl

/-- An assertion stores nothing but the fact asserted. -/
theorem edges_relateFrom (g : Store) (r : Uid) (S T : UidSet) :
    ∃ es, (g.relateFrom r S T).2.edges = g.edges ++ es ∧ ∀ e ∈ es, e.IsFactOf r S.toList T.toList := by
  rcases relateFrom_cases g r S T with ⟨h, -⟩ | ⟨-, -, -, ⟨f, h, -⟩ | ⟨k, f, g', h, hedges, hnew, -⟩⟩
  · exact ⟨[], by rw [h, List.append_nil], by simp⟩
  · exact ⟨[], by rw [h, List.append_nil], by simp⟩
  · have hf : (Hyperedge.fact f k.label S.toList T.toList r).uid ∉ g' := fun hm =>
      hnew ((edges_congr_mem hedges).1 hm)
    refine ⟨[.fact f k.label S.toList T.toList r], ?_, fun e he => ?_⟩
    · rw [h, edges_insert_of_not_mem hf, hedges,
        Hyperedge.tidied_eq_self ⟨S.nodup_toList, T.nodup_toList⟩]
    · rw [List.mem_singleton.1 he]
      exact ⟨rfl, rfl, fun _ => Iff.rfl, fun _ => Iff.rfl⟩

/-- All that is stored for a class is its concept and the fact about its superclasses. -/
theorem edges_createClass (g : Store) (root : ClassRoot) (u : Uid) (label : String) (superclasses : UidSet) :
    ∃ es, (g.createClass root u label superclasses).store.edges = g.edges ++ es ∧
      ∀ e ∈ es, e = .concept u label ∨
        e.IsFactOf Vocabulary.isA [u] (g.superclassesFor root u superclasses).toList := by
  rcases Store.createClass_cases g root u label superclasses with ⟨-, h, -⟩ | ⟨hname, -, -, h⟩
  · exact ⟨[], by rw [h, List.append_nil], by simp⟩
  obtain ⟨es, hes, hfacts⟩ := edges_relateFrom (g.create u label).2 Vocabulary.isA (.single u)
    (g.superclassesFor root u superclasses)
  refine ⟨(if u ∈ g then [] else [.concept u label]) ++ es, ?_, fun e he => ?_⟩
  · rw [h, isA, hes, edges_create (ne_empty_of_canNameClass hname), List.append_assoc]
  · rcases List.mem_append.1 he with he | he
    · split at he
      · simp at he
      · exact .inl (List.mem_singleton.1 he)
    · exact .inr (hfacts e he)

theorem MadeClass.isBelow (hm : MadeClass h u superclasses) (hc : c ∈ superclasses) : h.IsBelow u c :=
  .single (leads_inverse_iff.1 (hm.leads hc))

/-- **A class that was made** has all that is asked of it. -/
theorem Regular.newClass (hg : Regular g)
    (hm : MadeClass (g.createClass root u label superclasses).store u
      (g.superclassesFor root u superclasses)) (hname : g.canNameClass u) :
    NewClass g root u label superclasses (g.createClass root u label superclasses).store := by
  have hgh := extends_createClass g root u label superclasses
  obtain ⟨e, he, hu⟩ := mem_def.1 hm.stored
  have hkept : (g.createClass root u label superclasses).store.canNameClass u := canNameClass_createClass hname
  have hkind := (canNameClass_iff.1 hkept).2
  refine ⟨⟨e, he, hu, hkind e he hu⟩, ?_, fun c hc hadmits => ?_, edges_createClass g root u label superclasses⟩
  · have hroot := allClasses_mono hgh (hg.admits_root root).2
    by_cases hur : u = root.uid
    · rw [← hur] at hroot
      exact hroot
    · refine hm.mem_allClasses (hg.mem_superclassesFor_iff.2 ?_) hroot
      exact ⟨.inl rfl, (hg.admits_root root).1, Ne.symm hur⟩
  · by_cases hcu : c = u
    · rw [hcu]
      exact .refl
    · exact hm.isBelow (hg.mem_superclassesFor_iff.2 ⟨.inr hc, hadmits, hcu⟩)

end Store

/-! ### Made once more -/

namespace Store

variable {g h : Store} {root : ClassRoot} {u c d : Uid} {label : String} {superclasses S : UidSet}

theorem Regular.mem_of_isBelow (hg : Regular g) (hb : g.IsBelow c d) (hd : d ∈ g) : c ∈ g := by
  rcases hb.cases_head with rfl | ⟨b, hl, -⟩
  · exact hd
  · exact hg.closed.near hl

/-- A chain of facts that uses what was asserted of the new class has led to the class before. -/
theorem isBelow_createClass (hb : (g.createClass root u label superclasses).store.IsBelow c d) :
    g.IsBelow c d ∨ g.IsBelow c u := by
  induction hb using ReflTransGen.head_induction_on with
  | refl => exact .inl .refl
  | @head a b hl _ ih =>
    obtain ⟨A, B, hf, ha, hb⟩ := hl
    rcases (adds_createClass g root u label superclasses).asserts_or hf with hf | ⟨-, rfl, -⟩
    · exact ih.imp (.head ⟨A, B, hf, ha, hb⟩) (.head ⟨A, B, hf, ha, hb⟩)
    · rw [List.mem_singleton.1 ha]
      exact .inr .refl

/-- **What a new class brings about**: from now on the class is admitted, and so is all that was below it. -/
theorem Regular.admitsSuperclass_createClass (hg : Regular g)
    (hm : MadeClass (g.createClass root u label superclasses).store u
      (g.superclassesFor root u superclasses)) :
    (g.createClass root u label superclasses).store.AdmitsSuperclass root c ↔
      g.AdmitsSuperclass root c ∨ g.IsBelow c u := by
  have hh := (conforming_createClass g root u label superclasses).regular hg
  have hgh := extends_createClass g root u label superclasses
  constructor
  · rintro ⟨l, hl, -, hb⟩
    refine (isBelow_createClass hb).imp_left fun hb => ⟨l, hl, ?_, hb⟩
    exact hg.mem_of_isBelow hb (hg.root_mem l)
  · rintro (hc | hb)
    · exact hc.mono hgh
    · obtain ⟨s, hs⟩ := UidSet.isEmpty_eq_false_iff.1 hm.nonempty
      have hu := ((hg.mem_superclassesFor_iff.1 hs).2.1.mono hgh).of_isBelow hm.stored (hm.isBelow hs)
      have hb' := hb.mono hgh
      exact hu.of_isBelow (hh.mem_of_isBelow hb' hm.stored) hb'

theorem Regular.mem_superclassesFor_createClass (hg : Regular g)
    (hm : MadeClass (g.createClass root u label superclasses).store u
      (g.superclassesFor root u superclasses)) :
    c ∈ (g.createClass root u label superclasses).store.superclassesFor root u superclasses ↔
      c ∈ g.superclassesFor root u superclasses ∨ c ∈ superclasses ∧ c ≠ u ∧ g.IsBelow c u := by
  have hh := (conforming_createClass g root u label superclasses).regular hg
  rw [hh.mem_superclassesFor_iff, hg.mem_superclassesFor_iff, hg.admitsSuperclass_createClass hm]
  constructor
  · rintro ⟨rfl | hc, hadmits, hne⟩
    · exact .inl ⟨.inl rfl, (hg.admits_root root).1, hne⟩
    · exact hadmits.imp (⟨.inr hc, ·, hne⟩) (⟨hc, hne, ·⟩)
  · rintro (⟨hc, hadmits, hne⟩ | ⟨hc, hne, hb⟩)
    · exact ⟨hc, .inl hadmits, hne⟩
    · exact ⟨.inr hc, .inr hb, hne⟩

/-- A fact about a class was stored before the class was made only if the lattice has not changed. -/
theorem Regular.superclassesFor_eq_of_joins (hg : Regular g)
    (hm : MadeClass (g.createClass root u label superclasses).store u
      (g.superclassesFor root u superclasses))
    (hj : (g.createClass root u label superclasses).store.Joins Vocabulary.isA (.single u)
      ((g.createClass root u label superclasses).store.superclassesFor root u superclasses)) :
    (g.createClass root u label superclasses).store.superclassesFor root u superclasses =
      g.superclassesFor root u superclasses := by
  obtain ⟨A, B, hf, hA, hB⟩ := hj
  rcases (adds_createClass g root u label superclasses).asserts_or hf with hf | ⟨-, -, rfl, -⟩
  swap
  · exact UidSet.ext fun c => (hB c).symm
  · -- the class lay below an admitted one before, and with it all that was below the class
    obtain ⟨s, hs⟩ := UidSet.isEmpty_eq_false_iff.1 hm.nonempty
    have hsB : s ∈ B := (hB s).2 ((hg.mem_superclassesFor_createClass hm).2 (.inl hs))
    have hl : g.Leads Vocabulary.isA .forward u s := ⟨A, B, hf, (hA u).2 (UidSet.mem_single.2 rfl), hsB⟩
    have hu := hg.closed.near hl
    have hadmits := (hg.mem_superclassesFor_iff.1 hs).2.1.of_isBelow hu (.single hl)
    refine UidSet.ext fun c => (hg.mem_superclassesFor_createClass hm).trans (or_iff_left_of_imp ?_)
    rintro ⟨hc, hne, hb⟩
    exact hg.mem_superclassesFor_iff.2 ⟨.inr hc, hadmits.of_isBelow (hg.mem_of_isBelow hb hu) hb, hne⟩

theorem Regular.superclassesFor_eq_iff (hg : Regular g)
    (hm : MadeClass (g.createClass root u label superclasses).store u
      (g.superclassesFor root u superclasses)) :
    (g.createClass root u label superclasses).store.superclassesFor root u superclasses =
      g.superclassesFor root u superclasses ↔
      ∀ c ∈ superclasses, c ≠ u → g.IsBelow c u → g.AdmitsSuperclass root c := by
  constructor
  · intro heq c hc hne hb
    have hmem := (hg.mem_superclassesFor_createClass hm).2 (.inr ⟨hc, hne, hb⟩)
    rw [heq] at hmem
    exact (hg.mem_superclassesFor_iff.1 hmem).2.1
  · intro hall
    refine UidSet.ext fun c => (hg.mem_superclassesFor_createClass hm).trans (or_iff_left_of_imp ?_)
    rintro ⟨hc, hne, hb⟩
    exact hg.mem_superclassesFor_iff.2 ⟨.inr hc, hall c hc hne hb, hne⟩

/-- **The second call** gives the class again, and a third one changes nothing. -/
theorem Regular.createClass_createClass (hg : Regular g)
    (hm : MadeClass (g.createClass root u label superclasses).store u
      (g.superclassesFor root u superclasses)) (hname : g.canNameClass u) :
    let once := (g.createClass root u label superclasses).store
    let twice := once.createClass root u label superclasses
    twice.result = some u ∧
      (twice.store.edges = once.edges ↔
        ∀ c ∈ superclasses, c ≠ u → g.IsBelow c u → g.AdmitsSuperclass root c) ∧
      (twice.store.createClass root u label superclasses).store = twice.store := by
  intro once twice
  have honce : Regular once := (conforming_createClass g root u label superclasses).regular hg
  obtain ⟨s, hs⟩ := UidSet.isEmpty_eq_false_iff.1 hm.nonempty
  have hresult : twice.result = some u :=
    createClass_isSome (honce.declares (by decide)) (canNameClass_createClass hname)
      (UidSet.isEmpty_eq_false_iff.2 ⟨s, (hg.mem_superclassesFor_createClass hm).2 (.inl hs)⟩)
  have hm₂ : MadeClass twice.store u (once.superclassesFor root u superclasses) :=
    (madeClass_of_createClass hresult).2
  refine ⟨hresult, (Iff.intro (fun hedges => ?_) fun heq => ?_).trans (hg.superclassesFor_eq_iff hm),
    createClass_again ?_⟩
  · obtain ⟨A, B, ⟨e, he, hf⟩, hAB⟩ := hm₂.below
    rw [hedges] at he
    exact hg.superclassesFor_eq_of_joins hm ⟨A, B, ⟨e, he, hf⟩, hAB⟩
  · rw [← heq] at hm
    exact congrArg edges (createClass_again hm)
  · -- all that lies below the class is admitted since the first call
    have hsame : twice.store.superclassesFor root u superclasses = once.superclassesFor root u superclasses :=
      (honce.superclassesFor_eq_iff hm₂).2 fun c _ _ hb =>
        ((hg.admitsSuperclass_createClass hm).2 (.inr .refl)).of_isBelow
          (honce.mem_of_isBelow hb hm.stored) hb
    rwa [hsame]

end Store

/-! ### In every model -/

namespace Reached

variable {admits : Operation → Prop} {o : Ontology}

/-- **A class is made or nothing happens.** In a model that any operations lead to, a factory of classes
answers the uid it was given, and then this is a concept that is found below the root and lies below every
superclass that was admitted (`NewClass`), or it answers nothing and stores nothing; and it does the latter
just if the facts that were stored refuse the class. -/
theorem createClass_all_or_nothing (hg : Reached admits o.store) (root : ClassRoot) (u : Uid) (label : String)
    (superclasses : UidSet) :
    let called := o.perform (.createClass root u label superclasses) trivial
    called.1 = .uid (some u) ∧ ¬ o.store.RefusesClass root u superclasses ∧
        NewClass o.store root u label superclasses called.2.store ∨
      called.1 = .uid none ∧ o.store.RefusesClass root u superclasses ∧ called.2.store = o.store := by
  intro called
  have hresult : called.1 = .uid (o.store.createClass root u label superclasses).result := rfl
  rcases hg.regular.createClass_cases root u label superclasses with
    ⟨hrefused, hnone, hstore⟩ | ⟨hmade, hsome, hm⟩
  · exact .inr ⟨hresult.trans (congrArg _ hnone), hrefused, hstore⟩
  · have hname := hg.regular.canNameClass_of_not_refuses hmade
    exact .inl ⟨hresult.trans (congrArg _ hsome), hmade, hg.regular.newClass hm hname⟩

/-- An image that is an interface, and bytes that are made of it. -/
def imageOfBytes : Ontology where
  level := .algorithms
  store := [
    .createClass .softwareInterface "Image" "Image" ∅,
    .createClass .datatype "Byte" "Byte" (.single "Image")].foldl Operation.apply Store.blank
  memory := .empty
  rejections := []

theorem reached_imageOfBytes : Reached Operation.Shallow imageOfBytes.store := by
  unfold imageOfBytes
  dsimp only
  exact Reached.blank.foldl (by simp [Operation.Shallow])

/-- The interface becomes a component class too. Bytes are no superclass yet, but below one from then on. -/
theorem edges_imageOfBytes :
    let call := fun o : Ontology =>
      o.perform (.createClass .component "Image" "Image" (.single "Byte")) trivial
    let once := call imageOfBytes
    let twice := call once.2
    once.2.store.edges = imageOfBytes.store.edges ++ [.fact (numbered Vocabulary.isA 8) "IS-A"
        ["Image"] [Vocabulary.component] Vocabulary.isA] ∧
      twice.2.store.edges = once.2.store.edges ++ [.fact (numbered Vocabulary.isA 9) "IS-A"
        ["Image"] ["Byte", Vocabulary.component] Vocabulary.isA] := by
  decide +kernel

theorem createClass_all_or_nothing_imageOfBytes :
    let called := imageOfBytes.perform (.createClass .component "Image" "Image" (.single "Byte")) trivial
    Reached Operation.Shallow imageOfBytes.store ∧
      called.2.store.edges = imageOfBytes.store.edges ++ [.fact (numbered Vocabulary.isA 8) "IS-A"
        ["Image"] [Vocabulary.component] Vocabulary.isA] ∧
      (called.1 = .uid (some "Image") ∧ ¬ imageOfBytes.store.RefusesClass .component "Image" (.single "Byte") ∧
          NewClass imageOfBytes.store .component "Image" "Image" (.single "Byte") called.2.store ∨
        called.1 = .uid none ∧ imageOfBytes.store.RefusesClass .component "Image" (.single "Byte") ∧
          called.2.store = imageOfBytes.store) := by
  intro called
  exact ⟨reached_imageOfBytes, edges_imageOfBytes.1,
    createClass_all_or_nothing reached_imageOfBytes .component "Image" "Image" (.single "Byte")⟩

/-- **Making a class again** gives it again. This stores nothing unless one of the given superclasses was not
admitted but lay below the class when it was made first: it is admitted now, and asserted. A third call
changes nothing. -/
theorem createClass_again_iff (hg : Reached admits o.store) (root : ClassRoot) (u : Uid) (label : String)
    (superclasses : UidSet) :
    let call := fun o : Ontology => o.perform (.createClass root u label superclasses) trivial
    let once := call o
    let twice := call once.2
    twice.1 = once.1 ∧
      (twice.2.store.edges = once.2.store.edges ↔ o.store.RefusesClass root u superclasses ∨
        ∀ c ∈ superclasses, c ≠ u → o.store.IsBelow c u → o.store.AdmitsSuperclass root c) ∧
      (call twice.2).2.store = twice.2.store := by
  intro call once twice
  have honce : once.1 = .uid (o.store.createClass root u label superclasses).result := rfl
  have htwice : twice.1 = .uid
    ((o.store.createClass root u label superclasses).store.createClass root u label superclasses).result := rfl
  rcases hg.regular.createClass_cases root u label superclasses with
    ⟨hrefused, hnone, hstore⟩ | ⟨hmade, hsome, hm⟩
  · have hkept : once.2.store = o.store := hstore
    have hkept' : twice.2.store = o.store := by
      show (once.2.store.createClass root u label superclasses).store = o.store
      rw [hkept]
      exact hstore
    refine ⟨?_, iff_of_true (by rw [hkept, hkept']) (.inl hrefused), ?_⟩
    · rw [htwice, honce, hstore]
    · show (twice.2.store.createClass root u label superclasses).store = twice.2.store
      rw [hkept']
      exact hstore
  · have hname := hg.regular.canNameClass_of_not_refuses hmade
    obtain ⟨hresult, hedges, hthird⟩ := hg.regular.createClass_createClass hm hname
    exact ⟨by rw [htwice, honce, hresult, hsome], hedges.trans (or_iff_right hmade).symm, hthird⟩

theorem createClass_again_imageOfBytes :
    let call := fun o : Ontology =>
      o.perform (.createClass .component "Image" "Image" (.single "Byte")) trivial
    let once := call imageOfBytes
    let twice := call once.2
    Reached Operation.Shallow imageOfBytes.store ∧
      twice.2.store.edges = once.2.store.edges ++ [.fact (numbered Vocabulary.isA 9) "IS-A"
        ["Image"] ["Byte", Vocabulary.component] Vocabulary.isA] ∧
      twice.1 = once.1 ∧
      (twice.2.store.edges = once.2.store.edges ↔
        imageOfBytes.store.RefusesClass .component "Image" (.single "Byte") ∨
          ∀ c ∈ UidSet.single "Byte", c ≠ "Image" → imageOfBytes.store.IsBelow c "Image" →
            imageOfBytes.store.AdmitsSuperclass .component c) ∧
      (call twice.2).2.store = twice.2.store := by
  refine ⟨reached_imageOfBytes, edges_imageOfBytes.2, ?_⟩
  exact createClass_again_iff reached_imageOfBytes .component "Image" "Image" (.single "Byte")

/-- So making a class is not idempotent. -/
theorem not_idempotent_imageOfBytes :
    let call := fun o : Ontology =>
      o.perform (.createClass .component "Image" "Image" (.single "Byte")) trivial
    Reached Operation.Shallow imageOfBytes.store ∧
      (call (call imageOfBytes).2).2.store.edges ≠ (call imageOfBytes).2.store.edges := by
  obtain ⟨-, htwice⟩ := edges_imageOfBytes
  dsimp only at htwice ⊢
  exact ⟨reached_imageOfBytes, by simp [htwice]⟩

end Reached

end DesignGraph
