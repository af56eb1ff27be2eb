import DesignGraph.Network.Assertion
import DesignGraph.Network.Factory
import DesignGraph.Proofs.Relation.Reach
import DesignGraph.Proofs.Store.Twin
import DesignGraph.Vocabulary.Level
import Mathlib.Data.List.Perm.Basic

/-! # The order of edges does not show

`Reordered g h` says that two stores hold the same edges up to the order in which these were inserted and
the order of their endpoints. Queries answer with sets of what can be reached, so they are the same
functions on both (`Reordered.closure_eq`, `Reordered.related_eq` and so on). Operations do the same on
both if the same numbers were handed out too (`Matches`): the least unused number depends on the uids there
are (`firstUnused_congr`), and of several facts with the same endpoints some are found in any order, if
not the same ones, so an assertion leaves matching stores (`Matches.relateFrom`). -/

namespace DesignGraph

open Relation

namespace Hyperedge

variable {e e' : Hyperedge}

/-- The edge with its endpoints in ascending order. -/
def arranged (e : Hyperedge) : Hyperedge :=
  { e with sources := (UidSet.ofList e.sources).toList, targets := (UidSet.ofList e.targets).toList }

/-- Edges that are equal up to the order of their endpoints say the same. -/
theorem eq_of_arranged_eq (h : e.arranged = e'.arranged) :
    e.uid = e'.uid ∧ e.asserts? = e'.asserts? ∧ (∀ u, u ∈ e.sources ↔ u ∈ e'.sources) ∧
      ∀ u, u ∈ e.targets ↔ u ∈ e'.targets := by
  simp only [arranged, mk.injEq] at h
  obtain ⟨hu, -, hk, hs, ht, hr⟩ := h
  refine ⟨hu, by rw [asserts?, asserts?, hk, hr], fun u => ?_, fun u => ?_⟩
  · rw [← UidSet.mem_ofList, UidSet.mem_def, hs, ← UidSet.mem_def, UidSet.mem_ofList]
  · rw [← UidSet.mem_ofList, UidSet.mem_def, ht, ← UidSet.mem_def, UidSet.mem_ofList]

end Hyperedge

open Hyperedge

namespace Store

variable {g h k : Store} {e : Hyperedge} {d : Direction} {r u v base : Uid} {S T : UidSet}
  {label : String}

/-- The two stores hold the same edges, each with the same endpoints, in any orders. -/
def Reordered (g h : Store) : Prop := (g.edges.map arranged).Perm (h.edges.map arranged)

instance (g h : Store) : Decidable (Reordered g h) :=
  inferInstanceAs (Decidable ((g.edges.map arranged).Perm (h.edges.map arranged)))

namespace Reordered

theorem symm (hgh : Reordered g h) : Reordered h g := List.Perm.symm hgh

theorem exists_edge (hgh : Reordered g h) (he : e ∈ g.edges) :
    ∃ e' ∈ h.edges, e'.arranged = e.arranged :=
  List.mem_map.1 (hgh.mem_iff.1 (List.mem_map_of_mem he))

theorem mem (hgh : Reordered g h) (hu : u ∈ g) : u ∈ h := by
  obtain ⟨e, he, rfl⟩ := mem_def.1 hu
  obtain ⟨e', he', ha⟩ := hgh.exists_edge he
  exact mem_def.2 ⟨e', he', (eq_of_arranged_eq ha).1⟩

theorem leads (hgh : Reordered g h) {a b : Uid} (hl : g.Leads r d a b) : h.Leads r d a b := by
  obtain ⟨S, T, ⟨e, he, hr, rfl, rfl⟩, hd⟩ := hl
  obtain ⟨e', he', ha⟩ := hgh.exists_edge he
  obtain ⟨-, hr', hs, ht⟩ := eq_of_arranged_eq ha
  refine ⟨e'.sources, e'.targets, ⟨e', he', hr'.trans hr, rfl, rfl⟩, ?_⟩
  cases d <;> simpa only [Direction.Leads, hs, ht] using hd

theorem joins (hgh : Reordered g h) (hf : g.Joins r S T) : h.Joins r S T := by
  obtain ⟨S', T', ⟨e, he, hr, rfl, rfl⟩, hS, hT⟩ := hf
  obtain ⟨e', he', ha⟩ := hgh.exists_edge he
  obtain ⟨-, hr', hs, ht⟩ := eq_of_arranged_eq ha
  exact ⟨e'.sources, e'.targets, ⟨e', he', hr'.trans hr, rfl, rfl⟩, fun u => (hs u).trans (hS u),
    fun u => (ht u).trans (hT u)⟩

variable (hgh : Reordered g h)

include hgh

/-! ### Queries -/

theorem mem_iff : u ∈ h ↔ u ∈ g := ⟨hgh.symm.mem, hgh.mem⟩

/-- What does not look at the order of endpoints is the same for the edge under a uid. -/
theorem map_get?_eq {α : Type} (f : Hyperedge → α) (hf : ∀ e, f e.arranged = f e) (u : Uid) :
    (h.get? u).map f = (g.get? u).map f := by
  cases he : g.get? u with
  | none =>
    have hu : u ∉ h := fun hu => get?_eq_none_iff.1 he (hgh.mem_iff.1 hu)
    rw [get?_eq_none_iff.2 hu]
  | some e =>
    obtain ⟨e', he', ha⟩ := hgh.exists_edge (mem_of_get? he)
    have hu : e'.uid = u := (eq_of_arranged_eq ha).1.trans (uid_of_get? he)
    have hget := get?_of_mem he'
    rw [hu] at hget
    rw [hget, Option.map_some, Option.map_some, ← hf e', ha, hf e]

theorem labelOf_eq : h.labelOf = g.labelOf := by
  funext u
  rw [labelOf, labelOf, hgh.map_get?_eq (·.label) (fun _ => rfl)]

theorem filterByLabel_eq : h.filterByLabel = g.filterByLabel := by
  funext s label
  have hany : ∀ (f : Store) (u : Uid), ((f.get? u).any fun e => labelMatches label e.label) =
      ((f.get? u).map (·.label)).any (labelMatches label) := by
    intro f u
    cases f.get? u <;> rfl
  simp only [filterByLabel, hany, hgh.map_get?_eq (·.label) (fun _ => rfl)]

theorem leads_eq : h.Leads r d = g.Leads r d := by
  funext a b
  exact propext ⟨hgh.symm.leads, hgh.leads⟩

theorem closure_eq : h.closure = g.closure := by
  funext r d s
  refine UidSet.ext fun v => ?_
  simp only [mem_closure, hgh.mem_iff, hgh.leads_eq]

theorem subrelations_eq : h.subrelations = g.subrelations := by
  funext kinds
  rw [subrelations, subrelations, hgh.closure_eq]

theorem related_eq : h.related = g.related := by
  funext r s label d
  have hstep : ∀ kinds : UidSet, Arc.step (h.arcs (fun r => decide (r ∈ kinds)) d) s =
      Arc.step (g.arcs (fun r => decide (r ∈ kinds)) d) s := by
    intro kinds
    refine UidSet.ext fun v => ?_
    simp only [mem_step, hgh.leads_eq]
  rw [related, related, neighbours, neighbours, hgh.subrelations_eq, hstep, hgh.filterByLabel_eq]

theorem subclasses_eq : h.subclasses = g.subclasses := by
  funext s label d
  rw [subclasses, subclasses, hgh.closure_eq, hgh.filterByLabel_eq]

theorem directSubclasses_eq : h.directSubclasses = g.directSubclasses := by
  funext s label d
  rw [directSubclasses, directSubclasses, hgh.related_eq]

theorem instances_eq : h.instances = g.instances := by
  funext s label d
  rw [instances, instances, hgh.related_eq]

theorem classesOf_eq : h.classesOf = g.classesOf := by
  funext u
  rw [classesOf, classesOf, hgh.instances_eq]

theorem children_eq : h.children = g.children := by
  funext s label d
  rw [children, children, hgh.related_eq]

theorem classes_eq : h.classes = g.classes := by
  funext root label below
  rw [classes, classes, hgh.subclasses_eq]

theorem allClasses_eq : h.allClasses = g.allClasses := by
  funext root
  rw [allClasses, allClasses, hgh.classes_eq]

theorem members_eq : h.members = g.members := by
  funext root label classLabel
  rw [members, members, hgh.instances_eq, hgh.classes_eq]

theorem allMembers_eq : h.allMembers = g.allMembers := by
  funext root
  rw [allMembers, allMembers, hgh.members_eq]

theorem interfacesOf_eq : h.interfacesOf = g.interfacesOf := by
  funext s label d
  cases d <;> simp only [interfacesOf, hgh.children_eq, hgh.allMembers_eq, hgh.members_eq]

theorem componentsOf_eq : h.componentsOf = g.componentsOf := by
  funext s label d
  cases d <;>
    simp only [componentsOf, hgh.children_eq, hgh.allClasses_eq, hgh.allMembers_eq, hgh.members_eq]

theorem dependenciesOf_eq : h.dependenciesOf = g.dependenciesOf := by
  funext s label
  rw [dependenciesOf, dependenciesOf, hgh.related_eq, hgh.members_eq]

theorem canNameClass_eq : h.canNameClass = g.canNameClass := by
  funext u
  have hall : ∀ f : Store, ((f.get? u).all fun e => e.kind == .concept) =
      ((f.get? u).map (·.kind)).all (· == .concept) := by
    intro f
    cases f.get? u <;> rfl
  rw [canNameClass, canNameClass, hall, hall, hgh.map_get?_eq (·.kind) (fun _ => rfl)]

theorem sift_eq : h.sift = g.sift := by
  funext relation role valid expected uids
  have hreject : h.reject = g.reject := by
    funext relation role expected u
    simp only [reject, hgh.mem_iff]
  rw [sift, sift, hreject]

theorem admitted_eq (root : ClassRoot) : root.admitted h = root.admitted g := by
  cases root <;> simp only [ClassRoot.admitted, hgh.allClasses_eq]

/-! ### Growth -/

theorem insert (e : Hyperedge) : Reordered (g.insert e) (h.insert e) := by
  by_cases he : e.uid ∈ g
  · rw [edges_insert_of_mem he, edges_insert_of_mem (hgh.mem he)]
    exact hgh
  · have he' : e.uid ∉ h := fun hm => he (hgh.mem_iff.1 hm)
    rw [Reordered, edges_insert_of_not_mem he, edges_insert_of_not_mem he', List.map_append,
      List.map_append]
    exact List.Perm.append_right _ hgh

theorem setLabel (u : Uid) (label : String) : Reordered (g.setLabel u label) (h.setLabel u label) := by
  have harranged : ∀ f : Store, (f.setLabel u label).edges.map arranged =
      (f.edges.map arranged).map (relabel u label) := by
    intro f
    rw [Store.setLabel, List.map_map, List.map_map]
    refine List.map_congr_left fun e _ => ?_
    by_cases he : e.uid = u <;> simp [relabel, arranged, he]
  rw [Reordered, harranged, harranged]
  exact List.Perm.map _ hgh

theorem isSome_findFact? (r : Uid) (S T : UidSet) :
    (h.findFact? r S T).isSome = (g.findFact? r S T).isSome := by
  have hiff : ∀ f : Store, (f.findFact? r S T).isSome ↔ f.Joins r S T := by
    intro f
    rw [Option.isSome_iff_exists]
    exact ⟨fun ⟨_, hu⟩ => joins_of_findFact? hu, findFact?_of_joins⟩
  rw [Bool.eq_iff_iff, hiff, hiff]
  exact ⟨hgh.symm.joins, hgh.joins⟩

end Reordered

/-! ### Operations -/

/-- The least unused number depends only on what is taken. -/
theorem firstUnused_congr {taken taken' : List Uid} (ht : ∀ u, u ∈ taken ↔ u ∈ taken') (n : Nat) :
    firstUnused base taken n = firstUnused base taken' n := by
  have hfree := numbered_firstUnused_not_mem base taken n
  have hfree' := numbered_firstUnused_not_mem base taken' n
  rcases Nat.lt_trichotomy (firstUnused base taken n) (firstUnused base taken' n) with hlt | heq | hlt
  · exact absurd ((ht _).2 (taken_of_lt_firstUnused (le_firstUnused base taken n) hlt)) hfree
  · exact heq
  · exact absurd ((ht _).1 (taken_of_lt_firstUnused (le_firstUnused base taken' n) hlt)) hfree'

/-- The two stores hold the same edges in any orders and have handed out the same numbers. -/
structure Matches (g h : Store) : Prop where
  reordered : Reordered g h
  issued : h.issued = g.issued

namespace Matches

theorem renumbered (hgh : Reordered g h) : Matches g.renumbered h.renumbered := ⟨hgh, rfl⟩

variable (hgh : Matches g h)

include hgh

theorem insert (e : Hyperedge) : Matches (g.insert e) (h.insert e) where
  reordered := hgh.reordered.insert e
  issued := by rw [issued_insert, issued_insert, hgh.issued]

theorem nextFree (base : Uid) : (h.nextFree base).1 = (g.nextFree base).1 ∧
    Matches (g.nextFree base).2 (h.nextFree base).2 := by
  have hunused : firstUnused base h.uidList (h.issued base + 1) =
      firstUnused base g.uidList (g.issued base + 1) := by
    rw [hgh.issued]
    exact firstUnused_congr (fun u => hgh.reordered.mem_iff) _
  refine ⟨congrArg (numbered base) hunused, hgh.reordered, ?_⟩
  simp only [Store.nextFree]
  rw [hunused, hgh.issued]

theorem setLabel (u : Uid) (label : String) : Matches (g.setLabel u label) (h.setLabel u label) :=
  ⟨hgh.reordered.setLabel u label, hgh.issued⟩

theorem create (u : Uid) (label : String) : Matches (g.create u label).2 (h.create u label).2 := by
  unfold Store.create
  split
  · exact hgh
  · exact hgh.insert _

theorem relate (u : Uid) (sources targets : List Uid) (label : String) :
    Matches (g.relate u sources targets label).2 (h.relate u sources targets label).2 := by
  unfold Store.relate
  split
  · exact hgh
  · exact hgh.insert _

theorem appendFact {relation relation' : Hyperedge} (ha : relation'.arranged = relation.arranged)
    (S T : UidSet) : Matches (g.appendFact relation S T).2 (h.appendFact relation' S T).2 := by
  simp only [arranged, Hyperedge.mk.injEq] at ha
  obtain ⟨hu, hl, -⟩ := ha
  obtain ⟨hfresh, hnext⟩ := hgh.nextFree relation.uid
  unfold Store.appendFact
  simp only [hu, hl, hfresh]
  exact hnext.insert _

/-- An assertion is refused on both stores or on neither. Which of several facts with the same endpoints it
finds may differ. -/
theorem relateFrom (r : Uid) (S T : UidSet) :
    (h.relateFrom r S T).1.isSome = (g.relateFrom r S T).1.isSome ∧
      Matches (g.relateFrom r S T).2 (h.relateFrom r S T).2 := by
  have hget := hgh.reordered.map_get?_eq arranged (fun e => ?_) r
  have hfind := hgh.reordered.isSome_findFact? r S T
  unfold Store.relateFrom
  split
  · exact ⟨rfl, hgh⟩
  · cases hk : g.get? r with
    | none =>
      rw [hk, Option.map_none, Option.map_eq_none_iff] at hget
      rw [hget]
      exact ⟨rfl, hgh⟩
    | some k =>
      rw [hk, Option.map_some, Option.map_eq_some_iff] at hget
      obtain ⟨k', hk', ha⟩ := hget
      have hkind : k'.kind = k.kind :=
        show k'.arranged.kind = k.arranged.kind from congrArg Hyperedge.kind ha
      rw [hk']
      simp only [hkind]
      split
      · exact ⟨rfl, hgh⟩
      · cases hf : g.findFact? r S T with
        | some u =>
          rw [hf, Option.isSome_some, Option.isSome_iff_exists] at hfind
          obtain ⟨u', hf'⟩ := hfind
          rw [hf']
          exact ⟨rfl, hgh⟩
        | none =>
          rw [hf, Option.isSome_none, Option.isSome_eq_false_iff, Option.isNone_iff_eq_none] at hfind
          rw [hfind]
          exact ⟨rfl, hgh.appendFact ha S T⟩
  -- the endpoints of an arranged edge are arranged
  · simp only [arranged, UidSet.ofList_toList]

theorem declare (declaration : Declaration) :
    Matches (declaration.declare g) (declaration.declare h) := by
  cases declaration with
  | concept u label => exact hgh.create u label
  | relation u sources targets label => exact hgh.relate u sources targets label
  | subrelation child parent => exact (hgh.relateFrom _ _ _).2
  | subclass child parent => exact (hgh.relateFrom _ _ _).2

theorem bootstrap (level : Level) : Matches (level.bootstrap g) (level.bootstrap h) := by
  have hfold : ∀ (l : List Declaration) (g h : Store), Matches g h →
      Matches (l.foldl Declaration.declare g) (l.foldl Declaration.declare h) := by
    intro l
    induction l with
    | nil => exact fun _ _ hgh => hgh
    | cons declaration l ih => exact fun g h hgh => ih _ _ (hgh.declare declaration)
  exact hfold _ g h hgh

omit hgh in
/-- Opening reordered edges at a level gives matching graphs. -/
theorem copy (hgh : Reordered g h) (level : Level) : Matches (level.copy g) (level.copy h) :=
  (renumbered hgh).bootstrap level

end Matches

end Store

/-! ### Classes and typed assertions -/

open Store (Matches)

/-- Two outcomes, both with a result or both without one, with the same rejections, on matching stores. -/
structure Outcome.Matches (o o' : Outcome) : Prop where
  isSome : o'.result.isSome = o.result.isSome
  rejected : o'.rejected = o.rejected
  store : o.store.Matches o'.store

namespace Store.Matches

variable {g h : Store} (hgh : Matches g h)

include hgh

theorem createClass (root : ClassRoot) (u : Uid) (label : String) (superclasses : UidSet) :
    (g.createClass root u label superclasses).Matches (h.createClass root u label superclasses) := by
  unfold Store.createClass
  rw [hgh.reordered.canNameClass_eq, hgh.reordered.admitted_eq, hgh.reordered.sift_eq]
  dsimp only
  split
  · split
    · exact ⟨rfl, rfl, hgh⟩
    · obtain ⟨hfact, hstore⟩ := (hgh.create u label).relateFrom Vocabulary.isA (.single u)
        ((g.sift Vocabulary.isA .superclass (root.admitted g) root.expected
          (superclasses.insert root.uid).toList).1.erase u)
      refine ⟨?_, rfl, hstore⟩
      rw [Option.isSome_map, Option.isSome_map]
      exact hfact
  · exact ⟨rfl, rfl, hgh⟩

theorem realizes (implementations algorithms : List Uid) :
    (g.realizes implementations algorithms).Matches (h.realizes implementations algorithms) := by
  unfold Store.realizes Store.assertBetween
  rw [Side.implementationClass, Side.implementationClass, Side.algorithmClass, Side.algorithmClass,
    hgh.reordered.allClasses_eq, hgh.reordered.sift_eq]
  obtain ⟨hfact, hstore⟩ := hgh.relateFrom Vocabulary.isA _ _
  exact ⟨hfact, rfl, hstore⟩

end Store.Matches

end DesignGraph
