import DesignGraph.Network.Assertion
import DesignGraph.Network.Factory
import DesignGraph.Proofs.Relation.Reach

/-! # What making a class leaves

`createClass` is refused and leaves the store as it is, or makes the concept and asserts one fact: that it
lies below the superclasses it is left with (`createClass_cases`). Nothing that is known changes, not even
its label, and a class made below a root lies in the lattice of the superclasses admitted
(`MadeClass.mem_allClasses`). -/

namespace DesignGraph

theorem UidSet.not_isEmpty_single (u : Uid) : ¬ (UidSet.single u).isEmpty :=
  isEmpty_eq_false_iff.2 ⟨u, mem_single.2 rfl⟩

namespace Store

variable {g h : Store} {root : ClassRoot} {u v c : Uid} {label : String} {superclasses S T : UidSet}

/-! ### Classes -/

/-- The superclasses that a class is left with: the root and those given, as far as the root admits them,
but not the class itself. -/
def superclassesFor (g : Store) (root : ClassRoot) (u : Uid) (superclasses : UidSet) : UidSet :=
  (g.sift Vocabulary.isA .superclass (root.admitted g) root.expected
    (superclasses.insert root.uid).toList).1.erase u

@[simp] theorem mem_superclassesFor : c ∈ g.superclassesFor root u superclasses ↔
    (c = root.uid ∨ c ∈ superclasses) ∧ c ∈ root.admitted g ∧ c ≠ u := by
  simp [superclassesFor, sift, and_assoc]

/-- **What making a class can do**: it is refused, or the concept is made and a fact asserted of it. -/
theorem createClass_cases (g : Store) (root : ClassRoot) (u : Uid) (label : String)
    (superclasses : UidSet) :
    ((g.createClass root u label superclasses).result = none ∧
      (g.createClass root u label superclasses).store = g ∧
      (¬ g.canNameClass u ∨ (g.superclassesFor root u superclasses).isEmpty)) ∨
    (g.canNameClass u ∧ ¬ (g.superclassesFor root u superclasses).isEmpty ∧
      let asserted := (g.create u label).2.isA (.single u) (g.superclassesFor root u superclasses)
      (g.createClass root u label superclasses).result = asserted.1.map (fun _ => u) ∧
      (g.createClass root u label superclasses).store = asserted.2) := by
  unfold createClass
  by_cases hname : g.canNameClass u
  · by_cases hkept : (g.superclassesFor root u superclasses).isEmpty
    · have hkept' := hkept
      simp only [superclassesFor] at hkept'
      simp [hname, hkept, hkept']
    · have hkept' := hkept
      simp only [superclassesFor] at hkept'
      right
      simp only [hname, hkept', if_true, if_false, Bool.false_eq_true]
      exact ⟨trivial, hkept, rfl, rfl⟩
  · simp [hname, Outcome.nothing]

theorem ne_empty_of_canNameClass (h : g.canNameClass u) : u ≠ "" := by
  simp only [canNameClass, Bool.and_eq_true, bne_iff_ne] at h
  exact h.1

theorem createClass_empty : (g.createClass root "" label superclasses).store = g := by
  rcases createClass_cases g root "" label superclasses with ⟨-, h, -⟩ | ⟨hname, -⟩
  · exact h
  · exact absurd rfl (ne_empty_of_canNameClass hname)

theorem keeps_createClass (g : Store) (root : ClassRoot) (u : Uid) (label : String)
    (superclasses : UidSet) : Keeps g (g.createClass root u label superclasses).store := by
  rcases createClass_cases g root u label superclasses with ⟨-, h, -⟩ | ⟨-, -, -, h⟩
  · rw [h]
    exact .refl g
  · rw [h]
    exact (keeps_create g u label).trans (keeps_relateFrom _ _ _ _)

theorem extends_createClass (g : Store) (root : ClassRoot) (u : Uid) (label : String)
    (superclasses : UidSet) : Extends g (g.createClass root u label superclasses).store := by
  rcases createClass_cases g root u label superclasses with ⟨-, h, -⟩ | ⟨-, -, -, h⟩
  · rw [h]
    exact .refl _ g
  · rw [h]
    exact (grows_create g u label).extends.trans (adds_relateFrom _ _ _ _).extends

/-- A class that was made is known and lies below the superclasses that it was left with. -/
structure MadeClass (h : Store) (u : Uid) (kept : UidSet) : Prop where
  named : u ≠ ""
  stored : u ∈ h
  declared : h.Declares Vocabulary.isA
  nonempty : ¬ kept.isEmpty
  below : h.Joins Vocabulary.isA (.single u) kept

theorem MadeClass.mono (hgh : Extends g h) (hm : MadeClass g u S) : MadeClass h u S :=
  ⟨hm.named, hgh.mem hm.stored, hgh.declares hm.declared, hm.nonempty, hgh.joins hm.below⟩

theorem madeClass_of_createClass (h : (g.createClass root u label superclasses).result = some v) :
    v = u ∧ MadeClass (g.createClass root u label superclasses).store u
      (g.superclassesFor root u superclasses) := by
  rcases createClass_cases g root u label superclasses with ⟨hn, -⟩ | ⟨hname, hkept, hres, hstore⟩
  · rw [hn] at h
    cases h
  rw [hres] at h
  obtain ⟨f, hf, rfl⟩ := Option.map_eq_some_iff.1 h
  obtain ⟨hd, hS, hT⟩ := declares_of_relateFrom hf
  have hext : Extends (g.create u label).2
      ((g.create u label).2.isA (.single u) (g.superclassesFor root u superclasses)).2 :=
    (adds_relateFrom _ _ _ _).extends
  have hne := ne_empty_of_canNameClass hname
  rw [hstore]
  exact ⟨rfl, hne, hext.mem (mem_create hne), hext.declares hd, hkept,
    joins_relateFrom hd (by decide) hS hT⟩

/-- A class that is not refused is made if there is something for it to lie below. -/
theorem createClass_isSome (hd : g.Declares Vocabulary.isA) (hname : g.canNameClass u)
    (hkept : ¬ (g.superclassesFor root u superclasses).isEmpty) :
    (g.createClass root u label superclasses).result = some u := by
  rcases createClass_cases g root u label superclasses with ⟨-, -, hn⟩ | ⟨-, -, hres, -⟩
  · exact absurd hn (by simp [hname, hkept])
  · obtain ⟨f, hf⟩ := relateFrom_isSome ((grows_create g u label).extends.declares hd)
      (UidSet.not_isEmpty_single u) hkept
    rw [hres, isA, hf]
    rfl

theorem adds_createClass (g : Store) (root : ClassRoot) (u : Uid) (label : String)
    (superclasses : UidSet) :
    Adds (fun r S T => r = Vocabulary.isA ∧ S = [u] ∧ T = (g.superclassesFor root u superclasses).toList ∧
        g.canNameClass u ∧ ¬ (g.superclassesFor root u superclasses).isEmpty) g
      (g.createClass root u label superclasses).store := by
  rcases createClass_cases g root u label superclasses with ⟨-, h, -⟩ | ⟨hname, hkept, -, h⟩
  · rw [h]
    exact .refl _ g
  · rw [h]
    refine (adds_create _ g u label).trans ((adds_relateFrom _ _ _ _).mono ?_)
    rintro r S T ⟨⟨rfl, rfl, rfl⟩, -⟩
    exact ⟨rfl, rfl, rfl, hname, hkept⟩

theorem mem_createClass (hv : v ∈ (g.createClass root u label superclasses).store) :
    v ∈ g ∨ v = u ∧ g.canNameClass u ∨ ∃ n, v = numbered Vocabulary.isA n := by
  rcases createClass_cases g root u label superclasses with ⟨-, h, -⟩ | ⟨hname, -, -, h⟩
  · exact .inl (h ▸ hv)
  · rw [h] at hv
    rcases mem_relateFrom hv with hv | hn
    · obtain ⟨e, he, rfl⟩ := mem_def.1 hv
      rcases (grows_create g u label).edge_or he with ⟨e', he', hb⟩ | hb
      · exact .inl (mem_def.2 ⟨e', he', (Hyperedge.eq_of_bare_eq hb).1⟩)
      · exact .inr (.inl ⟨congrArg Hyperedge.uid hb, hname⟩)
    · exact .inr (.inr hn)

theorem Keeps.canNameClass (hgh : Keeps g h) (hu : u ∈ g) : h.canNameClass u = g.canNameClass u := by
  rw [Store.canNameClass, Store.canNameClass, hgh u hu]

theorem canNameClass_of_not_mem (hne : u ≠ "") (hu : u ∉ g) : g.canNameClass u := by
  simp [canNameClass, hne, get?_eq_none_iff.2 hu]

theorem canNameClass_create (hu : g.canNameClass u) : (g.create u label).2.canNameClass u := by
  have hne := ne_empty_of_canNameClass hu
  by_cases hmem : u ∈ g
  · rwa [(keeps_create g u label).canNameClass hmem]
  · have he : (Hyperedge.concept u label).tidied ∈ (g.create u label).2.edges := by
      rw [create, if_neg hne, edges_insert_of_not_mem hmem]
      exact List.mem_append_right _ (List.mem_singleton_self _)
    have hget : (g.create u label).2.get? u = some (Hyperedge.concept u label).tidied := get?_of_mem he
    simp [canNameClass, hne, hget, Hyperedge.tidied, Hyperedge.concept]

/-- The uid of a class can still name one after the class was made. -/
theorem canNameClass_createClass (hu : g.canNameClass u) :
    (g.createClass root u label superclasses).store.canNameClass u := by
  rcases createClass_cases g root u label superclasses with ⟨-, h, -⟩ | ⟨hname, -, -, h⟩
  · rwa [h]
  · rw [h]
    have hmem : u ∈ (g.create u label).2 := mem_create (ne_empty_of_canNameClass hname)
    rw [isA, (keeps_relateFrom _ _ _ _).canNameClass hmem]
    exact canNameClass_create hname

/-- A class that was made already is found, and making it again changes nothing. -/
theorem createClass_again (hm : MadeClass g u (g.superclassesFor root u superclasses)) :
    (g.createClass root u label superclasses).store = g := by
  rcases createClass_cases g root u label superclasses with ⟨-, h, -⟩ | ⟨-, -, -, h⟩
  · exact h
  · have hcreate : (g.create u label).2 = g := by
      rw [create, if_neg hm.named]
      exact edges_insert_of_mem hm.stored
    obtain ⟨f, hf⟩ := relateFrom_of_joins hm.declared (UidSet.not_isEmpty_single u) hm.nonempty hm.below
    rw [h, hcreate, isA, hf]

theorem MadeClass.leads (hm : MadeClass g u T) (hc : c ∈ T) : g.Leads Vocabulary.isA .inverse c u := by
  obtain ⟨S', T', hf, hS, hT⟩ := hm.below
  exact ⟨S', T', hf, (hT c).2 hc, (hS u).2 (UidSet.mem_single.2 rfl)⟩

/-- What lies directly below a class of a lattice lies in the lattice. -/
theorem MadeClass.mem_allClasses (hm : MadeClass g u T) (hc : c ∈ T) (hroot : c ∈ g.allClasses root) :
    u ∈ g.allClasses root := by
  obtain ⟨-, hr, hchain⟩ := Store.mem_allClasses.1 hroot
  exact Store.mem_allClasses.2 ⟨hm.stored, hr, hchain.tail (hm.leads hc)⟩

theorem MadeClass.mem_implementationsOf (hm : MadeClass g u (.single c))
    (hu : u ∈ g.allClasses .implementation) : u ∈ g.implementationsOf (.single c) "" := by
  refine UidSet.mem_inter.2 ⟨?_, hu⟩
  refine mem_related.2 ⟨hm.stored, Vocabulary.isA, ?_, c, ?_, hm.leads ?_⟩
  · exact mem_subrelations_single.2 ⟨hm.declared.mem, .refl⟩
  · exact UidSet.mem_single.2 rfl
  · exact UidSet.mem_single.2 rfl

/-! ### Realizing -/

/-- An implementation class and an algorithm class are both admitted. -/
theorem realizes_eq (hu : u ∈ g.allClasses .implementation) (hv : v ∈ g.allClasses .algorithm) :
    g.realizes [u] [v] = ⟨(g.isA (.single u) (.single v)).1, (g.isA (.single u) (.single v)).2, []⟩ := by
  have hone : ∀ w : Uid, UidSet.ofList [w] = .single w := fun w => UidSet.ext fun x => by simp
  simp [realizes, assertBetween, sift, Side.implementationClass, Side.algorithmClass, hu, hv, isA, hone]

end Store

end DesignGraph
