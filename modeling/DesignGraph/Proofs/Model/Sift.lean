import DesignGraph.Proofs.Model.Request
import DesignGraph.Proofs.Relation.Closure
import DesignGraph.Proofs.Relation.FactSet

/-! # What a typed assertion does

The five assertions that take lists of endpoints (`TypedAssertion`) differ in nothing but their rules: the
relation kind, and what is admitted at either end. An `Admission` is told by the stored facts: a class below a
root has a chain of facts up to it (`Store.IsClass`), an instance is declared to be one of such a class
(`Store.IsInstance`).

All five then do the same (`Sifts`). They assert one fact between all the admitted endpoints, or nothing if a
side has none, and reject every other endpoint each time it is given (`Dropped`), the sources first.

* `Store.assertBetween_sifts`: the one argument for all of them.
* `TypedAssertion.sifts`: what is answered, stored and rejected, in every model that operations reach. -/

namespace DesignGraph

open Relation Store

/-- What an assertion admits at an end, and what that is called: the classes below a root, the instances of
these classes, or both. -/
structure Admission where
  root : ClassRoot
  classes : Bool
  instances : Bool
  expected : String
  deriving DecidableEq

/-- What an assertion asserts, and between what. -/
structure AssertionRule where
  relation : Uid
  source : Admission
  target : Admission
  deriving DecidableEq

namespace Store

variable {g : Store} {root : ClassRoot} {u : Uid}

/-- A class below the root, the root included. -/
def IsClass (g : Store) (root : ClassRoot) (u : Uid) : Prop :=
  u ∈ g ∧ ReflTransGen (g.Leads Vocabulary.isA .forward) u root.uid

/-- An instance of a class below the root. -/
def IsInstance (g : Store) (root : ClassRoot) (u : Uid) : Prop :=
  ∃ c, g.Leads Vocabulary.instanceOf .forward u c ∧ g.IsClass root c

/-- The end admits the uid. -/
def Meets (g : Store) (t : Admission) (u : Uid) : Prop :=
  t.classes ∧ g.IsClass t.root u ∨ t.instances ∧ g.IsInstance t.root u

theorem Regular.mem_allClasses_iff (hg : Regular g) : u ∈ g.allClasses root ↔ g.IsClass root u := by
  rw [mem_allClasses, chain_inverse_iff, IsClass, and_iff_right (hg.root_mem root)]

theorem Regular.mem_allMembers_iff (hg : Regular g) : u ∈ g.allMembers root ↔ g.IsInstance root u := by
  rw [mem_allMembers]
  constructor
  · rintro ⟨-, c, hc, hcr⟩
    exact ⟨c, hg.mem_classesOf.1 hc, hg.mem_allClasses_iff.1 hcr⟩
  · rintro ⟨c, hc, hcr⟩
    exact ⟨hg.closed.near hc, c, hg.mem_classesOf.2 hc, hg.mem_allClasses_iff.2 hcr⟩

/-- The side of an assertion holds what is admitted, under its name. -/
structure Realizes (g : Store) (s : Side) (t : Admission) : Prop where
  mem_valid : ∀ u, u ∈ s.valid ↔ g.Meets t u
  expected : s.expected = t.expected

end Store

/-! ### What sifting leaves -/

/-- These are the rejections of a list of endpoints, one for each time one is given that is not admitted. -/
inductive Dropped (g : Store) (relation : Uid) (role : Role) (t : Admission) :
    List Uid → List Rejection → Prop
  | nil : Dropped g relation role t [] []
  | kept {u : Uid} {us : List Uid} {rs : List Rejection} (hu : g.Meets t u)
      (hrest : Dropped g relation role t us rs) : Dropped g relation role t (u :: us) rs
  | dropped {u : Uid} {us : List Uid} {rs : List Rejection} (hu : ¬ g.Meets t u)
      (hrest : Dropped g relation role t us rs) : Dropped g relation role t (u :: us)
        (⟨u, relation, role, if u ∈ g then .notAKnown t.expected else .unknownUid⟩ :: rs)

/-- The edge is a fact of the rule's kind between exactly the admitted ones among these endpoints. -/
structure Hyperedge.IsSifted (g : Store) (rule : AssertionRule) (sources targets : List Uid) (e : Hyperedge) :
    Prop where
  kind : e.kind = .fact
  relation : e.relation = some rule.relation
  sources : ∀ u, u ∈ e.sources ↔ u ∈ sources ∧ g.Meets rule.source u
  targets : ∀ u, u ∈ e.targets ↔ u ∈ targets ∧ g.Meets rule.target u

/-- What an assertion with this rule answers, stores and rejects. -/
structure Sifts (g : Store) (rule : AssertionRule) (sources targets : List Uid) (result : Option Uid)
    (h : Store) (rejected : List Rejection) : Prop where
  /-- With something admitted on both sides the result is one fact, which is stored already and nothing
  changes, or is the only edge to be appended. -/
  asserted : (∃ u ∈ sources, g.Meets rule.source u) → (∃ u ∈ targets, g.Meets rule.target u) →
    ∃ e, e.IsSifted g rule sources targets ∧ result = some e.uid ∧ (e ∈ g.edges ∧ h = g ∨
      (∀ e' ∈ g.edges, ¬ e'.IsSifted g rule sources targets) ∧ e.uid ∉ g ∧ h.edges = g.edges ++ [e])
  refused : ¬ ((∃ u ∈ sources, g.Meets rule.source u) ∧ ∃ u ∈ targets, g.Meets rule.target u) →
    result = none ∧ h = g
  rejected : ∃ rs rs', Dropped g rule.relation .source rule.source sources rs ∧
    Dropped g rule.relation .target rule.target targets rs' ∧ rejected = rs ++ rs'

namespace Store

variable {g : Store} {s source target : Side} {t : Admission} {u : Uid}

/-- **Sifting** rejects every occurrence of what is not admitted. -/
theorem dropped_sift (hs : g.Realizes s t) (relation : Uid) (role : Role) :
    ∀ uids, Dropped g relation role t uids (g.sift relation role s.valid s.expected uids).2 := by
  intro uids
  induction uids with
  | nil => exact .nil
  | cons u uids ih =>
    by_cases hu : u ∈ s.valid
    · have hskip : (g.sift relation role s.valid s.expected (u :: uids)).2 =
          (g.sift relation role s.valid s.expected uids).2 := by
        simp [sift, hu]
      rw [hskip]
      exact .kept ((hs.mem_valid u).1 hu) ih
    · have hreject : (g.sift relation role s.valid s.expected (u :: uids)).2 =
          g.reject relation role s.expected u :: (g.sift relation role s.valid s.expected uids).2 := by
        simp [sift, hu]
      rw [hreject, reject, hs.expected]
      exact .dropped (fun hm => hu ((hs.mem_valid u).2 hm)) (hs.expected ▸ ih)

theorem mem_sift_iff (hs : g.Realizes s t) {relation : Uid} {role : Role} {uids : List Uid} :
    u ∈ (g.sift relation role s.valid s.expected uids).1 ↔ u ∈ uids ∧ g.Meets t u := by
  rw [← hs.mem_valid]
  simp [sift]

theorem isEmpty_sift_iff (hs : g.Realizes s t) {relation : Uid} {role : Role} {uids : List Uid} :
    ¬ (g.sift relation role s.valid s.expected uids).1.isEmpty ↔ ∃ u ∈ uids, g.Meets t u := by
  simp only [UidSet.isEmpty_eq_false_iff, mem_sift_iff hs]

/-- **One argument for all assertions** whose sides hold what their rule admits. -/
theorem assertBetween_sifts {rule : AssertionRule} (hd : g.Declares rule.relation)
    (hne : rule.relation ≠ "") (hsource : g.Realizes source rule.source)
    (htarget : g.Realizes target rule.target) (sources targets : List Uid) :
    let outcome := g.assertBetween rule.relation source target sources targets
    Sifts g rule sources targets outcome.result outcome.store outcome.rejected := by
  intro outcome
  let S := (g.sift rule.relation .source source.valid source.expected sources).1
  let T := (g.sift rule.relation .target target.valid target.expected targets).1
  have hresult : outcome.result = (g.relateFrom rule.relation S T).1 := rfl
  have hstore : outcome.store = (g.relateFrom rule.relation S T).2 := rfl
  have hstates : ∀ e : Hyperedge, e.states ⟨rule.relation, S, T⟩ ↔ e.IsSifted g rule sources targets := by
    intro e
    rw [← S.ofList_toList, ← T.ofList_toList, Hyperedge.states_iff hne]
    simp only [Hyperedge.IsFactOf, UidSet.mem_toList, S, T, mem_sift_iff hsource, mem_sift_iff htarget]
    exact ⟨fun ⟨hk, hr, hS, hT⟩ => ⟨hk, hr, hS, hT⟩,
      fun h => ⟨h.kind, h.relation, h.sources, h.targets⟩⟩
  refine ⟨fun hS hT => ?_, fun hempty => ?_, _, _, dropped_sift hsource _ _ sources,
    dropped_sift htarget _ _ targets, rfl⟩
  · have hS' : ¬ S.isEmpty := (isEmpty_sift_iff hsource).2 hS
    have hT' : ¬ T.isEmpty := (isEmpty_sift_iff htarget).2 hT
    cases hfind : g.findFact? rule.relation S T with
    | some f =>
      obtain ⟨before, e, after, hedges, hs, -, rfl⟩ := findFact?_eq_some_iff.1 hfind
      rw [hresult, hstore, relateFrom_found hd hS' hT' hfind]
      exact ⟨e, (hstates e).1 hs, rfl, .inl ⟨by simp [hedges], rfl⟩⟩
    | none =>
      obtain ⟨f, hnew, hf, hedges⟩ := relateFrom_append hd hS' hT' hfind
      have hs : (Hyperedge.fact f (g.labelOf rule.relation) S.toList T.toList rule.relation).states
          ⟨rule.relation, S, T⟩ := by
        simp only [Hyperedge.states, joins, Hyperedge.asserts?_fact hne, Bool.and_eq_true, beq_iff_eq,
          decide_eq_true_eq, true_and]
        exact ⟨S.ofList_toList, T.ofList_toList⟩
      refine ⟨_, (hstates _).1 hs, hresult.trans hf, .inr ⟨fun e' he' hsifted => ?_, hnew, hedges⟩⟩
      exact findFact?_eq_none_iff.1 hfind e' he' ((hstates e').2 hsifted)
  · have hnothing : g.relateFrom rule.relation S T = (none, g) := by
      have hS : ¬ S.isEmpty ↔ ∃ u ∈ sources, g.Meets rule.source u := isEmpty_sift_iff hsource
      have hT : ¬ T.isEmpty ↔ ∃ u ∈ targets, g.Meets rule.target u := isEmpty_sift_iff htarget
      rw [← hS, ← hT, not_and_or, not_not, not_not] at hempty
      rw [relateFrom, if_pos (by simpa using hempty)]
    rw [hresult, hstore, hnothing]
    exact ⟨rfl, rfl⟩

end Store

/-! ### The five assertions -/

/-- An assertion that takes lists of endpoints and drops those that it does not admit. -/
inductive TypedAssertion where
  | hasInterface
  | connectInterface
  | partOfNetwork
  | dependsOn
  | realizes
  deriving DecidableEq, Repr

namespace TypedAssertion

/-- What the assertion asserts, and what it admits. -/
def rule : TypedAssertion → AssertionRule
  | hasInterface => ⟨Vocabulary.hasAInterface, ⟨.component, true, true, "component"⟩,
    ⟨.interface, false, true, "interface instance"⟩⟩
  | connectInterface => ⟨Vocabulary.connectedTo, ⟨.interface, false, true, "interface instance"⟩,
    ⟨.interface, false, true, "interface instance"⟩⟩
  | partOfNetwork => ⟨Vocabulary.partOfNetwork, ⟨.component, false, true, "component instance"⟩,
    ⟨.network, true, true, "network"⟩⟩
  | dependsOn => ⟨Vocabulary.dependsOn, ⟨.input, false, true, "input instance"⟩,
    ⟨.output, false, true, "output instance"⟩⟩
  | realizes => ⟨Vocabulary.isA, ⟨.implementation, true, false, "implementation class"⟩,
    ⟨.algorithm, true, false, "algorithm class"⟩⟩

/-- The call of the assertion on these endpoints. -/
def operation (sources targets : List Uid) : TypedAssertion → Operation
  | hasInterface => .hasInterface sources targets
  | connectInterface => .connectInterface sources targets
  | partOfNetwork => .partOfNetwork sources targets
  | dependsOn => .dependsOn sources targets
  | realizes => .realizes sources targets

theorem modelling (a : TypedAssertion) (sources targets : List Uid) :
    (a.operation sources targets).Modelling := by
  cases a <;> trivial

/-- The sides that the assertion sifts its endpoints by. -/
def sides (g : Store) : TypedAssertion → Side × Side
  | hasInterface => (.component g, .interfaceInstance g)
  | connectInterface => (.interfaceInstance g, .interfaceInstance g)
  | partOfNetwork => (.componentInstance g, .network g)
  | dependsOn => (.inputInstance g, .outputInstance g)
  | realizes => (.implementationClass g, .algorithmClass g)

theorem perform_eq (o : Ontology) (a : TypedAssertion) (sources targets : List Uid) :
    o.perform (a.operation sources targets) (a.modelling sources targets) =
      o.settle (o.store.assertBetween a.rule.relation (a.sides o.store).1 (a.sides o.store).2
        sources targets) := by
  cases a <;> rfl

theorem realizes_sides {g : Store} (hg : Regular g) (a : TypedAssertion) :
    g.Realizes (a.sides g).1 a.rule.source ∧ g.Realizes (a.sides g).2 a.rule.target := by
  cases a <;> refine ⟨⟨fun u => ?_, rfl⟩, ⟨fun u => ?_, rfl⟩⟩ <;>
    simp [sides, rule, Meets, Side.component, Side.componentInstance, Side.network, Side.interfaceInstance,
      Side.inputInstance, Side.outputInstance, Side.implementationClass, Side.algorithmClass,
      hg.mem_allClasses_iff, hg.mem_allMembers_iff, or_comm]

theorem declares_relation {g : Store} (hg : Regular g) (a : TypedAssertion) :
    g.Declares a.rule.relation ∧ a.rule.relation ≠ "" := by
  refine ⟨hg.declares ?_, ?_⟩ <;> cases a <;> decide

/-- **Typed assertions apply what conforms, or nothing.** In a model that any operations lead to, let `S` and
`T` be the admitted ones among the given sources and targets, by the facts that are stored before the call. If
both have members, the answer is one fact of the relation kind between exactly `S` and `T`, which is stored
already and nothing changes, or is the only edge that is appended; otherwise there is no answer and the store
stays as it is. Either way the rejections grow by one for each time an endpoint is given that is not
admitted, the sources first, and nothing else changes. -/
theorem sifts {admits : Operation → Prop} {o : Ontology} (hg : Reached admits o.store) (a : TypedAssertion)
    (sources targets : List Uid) :
    let called := o.perform (a.operation sources targets) (a.modelling sources targets)
    ∃ result rejected, called.1 = .uid result ∧
      Sifts o.store a.rule sources targets result called.2.store rejected ∧
      called.2 = { o with store := called.2.store, rejections := o.rejections ++ rejected } := by
  intro called
  obtain ⟨hsource, htarget⟩ := a.realizes_sides hg.regular
  obtain ⟨hd, hne⟩ := a.declares_relation hg.regular
  have hcalled : called = _ := a.perform_eq o sources targets
  rw [hcalled]
  exact ⟨_, _, rfl, assertBetween_sifts hd hne hsource htarget sources targets, rfl⟩

/-- A graph with an algorithm, and with an image that may become its interface. -/
def filterAndImage : Ontology where
  level := .algorithms
  store := [
    .createClass .interface "Image" "" ∅,
    .instantiate (.single "Image") "raw",
    .createClass .algorithm "Filter" "" ∅].foldl Operation.apply Store.blank
  memory := .empty
  rejections := []

theorem reached_filterAndImage : Reached Operation.Shallow filterAndImage.store := by
  unfold filterAndImage
  dsimp only
  exact Reached.blank.foldl (by simp [Operation.Shallow])

/-- Of the sources only the algorithm is a component, and of the targets only the instance of the image. -/
theorem sifts_filterAndImage :
    let sources := ["Image1", "Filter", "Ghost", "Filter", "Image1"]
    let targets := ["Image1", "Image", "Image1"]
    let called := filterAndImage.perform (hasInterface.operation sources targets)
      (hasInterface.modelling sources targets)
    Reached Operation.Shallow filterAndImage.store ∧
      called.2.store.edges = filterAndImage.store.edges ++ [.fact (numbered Vocabulary.hasAInterface 1) "HAS-A"
        ["Filter"] ["Image1"] Vocabulary.hasAInterface] ∧
      called.2.rejections = [
        ⟨"Image1", Vocabulary.hasAInterface, .source, .notAKnown "component"⟩,
        ⟨"Ghost", Vocabulary.hasAInterface, .source, .unknownUid⟩,
        ⟨"Image1", Vocabulary.hasAInterface, .source, .notAKnown "component"⟩,
        ⟨"Image", Vocabulary.hasAInterface, .target, .notAKnown "interface instance"⟩] ∧
      ∃ result rejected, called.1 = .uid result ∧
        Sifts filterAndImage.store hasInterface.rule sources targets result called.2.store rejected ∧
        called.2 = { filterAndImage with
          store := called.2.store, rejections := filterAndImage.rejections ++ rejected } := by
  intro sources targets called
  have hcalled : called.2.store.edges = filterAndImage.store.edges ++ [.fact (numbered Vocabulary.hasAInterface 1)
        "HAS-A" ["Filter"] ["Image1"] Vocabulary.hasAInterface] ∧
      called.2.rejections = [
        ⟨"Image1", Vocabulary.hasAInterface, .source, .notAKnown "component"⟩,
        ⟨"Ghost", Vocabulary.hasAInterface, .source, .unknownUid⟩,
        ⟨"Image1", Vocabulary.hasAInterface, .source, .notAKnown "component"⟩,
        ⟨"Image", Vocabulary.hasAInterface, .target, .notAKnown "interface instance"⟩] := by decide +kernel
  exact ⟨reached_filterAndImage, hcalled.1, hcalled.2, sifts reached_filterAndImage hasInterface sources targets⟩

end TypedAssertion

end DesignGraph
