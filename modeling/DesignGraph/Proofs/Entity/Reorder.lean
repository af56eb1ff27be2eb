import DesignGraph.Proofs.Entity.Agreement
import DesignGraph.Proofs.Entity.Persist
import DesignGraph.Proofs.Store.Reorder

/-! # The order of edges does not show in a run

What a run reads it reads through queries, and stores that hold the same edges in any orders answer these
alike (`Reordered.agrees`), so they give the same compositions, descriptions and plans. What a run stores it
stores on matching stores, step by step (`Trace.Matches`, `Trace.Matches.persist`,
`Trace.Matches.generateNext`). So two graphs opened on the same edges in any orders have the same outputs,
and a run leaves them with the same edges again (`Reordered.outputs`). -/

namespace DesignGraph

open Store Entity

namespace Store.Reordered

variable {g h : Store} (hgh : Reordered g h)

include hgh

/-- Whatever a run asks, it is answered alike. -/
theorem agrees : Agrees (fun _ => True) g h where
  held _ _ := trivial
  labelOf _ _ := by rw [hgh.labelOf_eq]
  allClasses _ _ _ := by rw [hgh.allClasses_eq]
  directSubclasses _ _ _ := by rw [hgh.directSubclasses_eq]
  classesOf _ := by rw [hgh.classesOf_eq]
  allMembers _ := by rw [hgh.allMembers_eq]
  interfacesOf _ _ := by rw [hgh.interfacesOf_eq]
  partsOf u := by rw [partsOf, partsOf, hgh.componentsOf_eq]
  dependenciesOf _ := by rw [hgh.dependenciesOf_eq]

/-! ### Selection -/

theorem notGenerated_eq : h.notGenerated = g.notGenerated := by
  rw [notGenerated, notGenerated, hgh.allClasses_eq]

theorem candidates_eq : h.candidates = g.candidates := by
  funext label
  rw [candidates, candidates, hgh.classes_eq, hgh.notGenerated_eq]

theorem select_eq (uid label : String) : h.select uid label = g.select uid label := by
  rw [select, select, hgh.candidates_eq]

theorem plan_eq : h.plan = g.plan := by
  funext s targets
  exact hgh.agrees.plan_eq s fun _ _ => trivial

theorem skipped_eq : h.skipped = g.skipped := by
  funext s targets
  rw [skipped, skipped, hgh.plan_eq]

theorem relevantDatatypes_eq : h.relevantDatatypes = g.relevantDatatypes := by
  funext s
  rw [relevantDatatypes, relevantDatatypes, hgh.allClasses_eq, hgh.classes_eq]

end Store.Reordered

/-! ### Runs -/

namespace Entity

variable {s : Settings} {relevant : UidSet} {t t' : Trace} {a : Uid} {name text : String}

/-- Two runs that have done the same on matching stores. -/
structure Trace.Matches (t t' : Trace) : Prop where
  store : t.store.Matches t'.store
  rejected : t'.rejected = t.rejected
  notices : t'.notices = t.notices

namespace Trace.Matches

variable (ht : Trace.Matches t t')

include ht

theorem note (notices : List Notice) : Trace.Matches (t.note notices) (t'.note notices) where
  store := ht.store
  rejected := ht.rejected
  notices := congrArg (· ++ notices) ht.notices

theorem take {o o' : Outcome} (ho : o.Matches o') : Trace.Matches (t.take o) (t'.take o') where
  store := ho.store
  rejected := by
    rw [Trace.take, Trace.take, ht.rejected, ho.rejected]
  notices := ht.notices

theorem setLabel (u : Uid) (label : String) :
    Trace.Matches { t with store := t.store.setLabel u label }
      { t' with store := t'.store.setLabel u label } where
  store := ht.store.setLabel u label
  rejected := ht.rejected
  notices := ht.notices

/-- A text is stored on both stores or refused on both, for the same reason. -/
theorem persist (a : Uid) (name text : String) :
    (Trace.persist s t' a name text).1 = (Trace.persist s t a name text).1 ∧
      Trace.Matches (Trace.persist s t a name text).2 (Trace.persist s t' a name text).2 := by
  have hhost := ht.take (ht.store.createClass .implementation s.implementationUid
    s.implementationLabel ∅)
  have hcreated := hhost.store.createClass .implementation (implementationUid s name) text
    (.single s.implementationUid)
  have hlabelled := (hhost.take hcreated).setLabel (implementationUid s name) text
  have hrealized := hlabelled.store.realizes [implementationUid s name] [a]
  unfold Trace.persist
  simp only [← Option.not_isSome, hcreated.isSome, hrealized.isSome]
  split
  · exact ⟨rfl, hhost.take hcreated⟩
  · split
    · exact ⟨rfl, hlabelled.take hrealized⟩
    · exact ⟨rfl, hlabelled.take hrealized⟩

theorem generateEntity (relevant : UidSet) (a : Uid) :
    (Trace.generateEntity s relevant t' a).1 = (Trace.generateEntity s relevant t a).1 ∧
      Trace.Matches (Trace.generateEntity s relevant t a).2 (Trace.generateEntity s relevant t' a).2 := by
  have hst := ht.store.reordered
  have hcontext : t'.store.context a = t.store.context a := hst.agrees.context_eq trivial
  have hdesign : t'.store.design s relevant (t'.store.context a) =
      t.store.design s relevant (t.store.context a) := hst.agrees.design_eq (fun _ _ => trivial) trivial
  have hnotices : t'.store.typeNotices relevant = t.store.typeNotices relevant :=
    funext (hst.agrees.typeNotices_eq fun _ _ => trivial)
  rw [hcontext] at hdesign
  unfold Trace.generateEntity
  simp only [hcontext, hdesign, hnotices, hst.mem_iff]
  split
  · exact ⟨rfl, ht⟩
  · obtain ⟨hresult, hnext⟩ := (ht.note (t.store.typeNotices relevant (t.store.context a))).persist
      (s := s) a (t.store.context a).name (t.store.design s relevant (t.store.context a)).text
    generalize Trace.persist s (t.note _) a _ _ = p at hresult hnext
    generalize Trace.persist s (t'.note _) a _ _ = p' at hresult hnext
    obtain ⟨result, t₁⟩ := p
    obtain ⟨result', t₁'⟩ := p'
    obtain rfl : result' = result := hresult
    cases result' with
    | error f => exact ⟨rfl, hnext⟩
    | ok u => exact ⟨rfl, hnext.note _⟩

/-- **The step**: the same algorithm is entered into the same report. -/
theorem generateNext (relevant : UidSet) (r : Report) (a : Uid) :
    (Trace.generateNext s relevant (r, t') a).1 = (Trace.generateNext s relevant (r, t) a).1 ∧
      Trace.Matches (Trace.generateNext s relevant (r, t) a).2
        (Trace.generateNext s relevant (r, t') a).2 := by
  obtain ⟨hresult, hnext⟩ := ht.generateEntity (s := s) relevant a
  unfold Trace.generateNext
  simp only
  generalize Trace.generateEntity s relevant t a = p at hresult hnext
  generalize Trace.generateEntity s relevant t' a = p' at hresult hnext
  obtain ⟨result, t₁⟩ := p
  obtain ⟨result', t₁'⟩ := p'
  obtain rfl : result' = result := hresult
  cases result' with
  | error f => exact ⟨rfl, hnext.note _⟩
  | ok e => exact ⟨rfl, hnext⟩

theorem foldl (relevant : UidSet) (l : List Uid) (r : Report) :
    (l.foldl (Trace.generateNext s relevant) (r, t')).1 =
        (l.foldl (Trace.generateNext s relevant) (r, t)).1 ∧
      Trace.Matches (l.foldl (Trace.generateNext s relevant) (r, t)).2
        (l.foldl (Trace.generateNext s relevant) (r, t')).2 := by
  induction l generalizing r t t' with
  | nil => exact ⟨rfl, ht⟩
  | cons a l ih =>
    obtain ⟨hreport, hnext⟩ := ht.generateNext (s := s) relevant r a
    rw [List.foldl_cons, List.foldl_cons]
    generalize Trace.generateNext s relevant (r, t) a = p at hreport hnext
    generalize Trace.generateNext s relevant (r, t') a = p' at hreport hnext
    obtain ⟨r₁, t₁⟩ := p
    obtain ⟨r₁', t₁'⟩ := p'
    obtain rfl : r₁' = r₁ := hreport
    exact ih hnext r₁'

end Trace.Matches

end Entity

namespace Store

variable {g h : Store} {s : Settings} {uid label : String}

theorem Matches.carryOut (hgh : Matches g h) (s : Settings) (targets : UidSet) :
    (h.carryOut s targets).1 = (g.carryOut s targets).1 ∧
      Trace.Matches (g.carryOut s targets).2 (h.carryOut s targets).2 := by
  have hst := hgh.reordered
  have hstart : Trace.Matches (Trace.start g) (Trace.start h) := ⟨hgh, rfl, rfl⟩
  unfold Store.carryOut
  rw [hst.plan_eq, hst.skipped_eq, hst.relevantDatatypes_eq]
  exact (hstart.note _).foldl _ _ _

/-- Neither run finds an algorithm, or both give the same report and leave the same edges in any orders. -/
def SameRun : Except NoMatch (Report × Trace) → Except NoMatch (Report × Trace) → Prop
  | .error e, .error e' => e' = e
  | .ok (r, t), .ok (r', t') => r' = r ∧ Reordered t.store t'.store
  | _, _ => False

theorem Matches.generate (hgh : Matches g h) (s : Settings) (uid label : String) :
    SameRun (g.generate s uid label) (h.generate s uid label) := by
  cases hs : g.select uid label with
  | error e =>
    have hs' : h.select uid label = .error e := (hgh.reordered.select_eq uid label).trans hs
    simp only [Store.generate, hs, hs', SameRun]
  | ok targets =>
    have hs' : h.select uid label = .ok targets := (hgh.reordered.select_eq uid label).trans hs
    obtain ⟨hreport, htrace⟩ := hgh.carryOut s targets
    rw [generate_eq_ok.2 ⟨targets, hs, rfl, rfl⟩, generate_eq_ok.2 ⟨targets, hs', rfl, rfl⟩]
    exact ⟨hreport, htrace.store.reordered⟩

/-- **The order of edges does not show**: graphs opened on the same edges in any orders, with endpoints in
any orders, count the same datatypes, describe every algorithm in the same text, order every composition
alike or show the same cycle, and have the same runs. -/
theorem Reordered.outputs (hgh : Reordered g h) (s : Settings) :
    let k := Level.algorithms.copy g
    let k' := Level.algorithms.copy h
    k'.relevantDatatypes s = k.relevantDatatypes s ∧
      (∀ relevant a, k'.render s relevant a = k.render s relevant a) ∧
      (∀ a, k'.composition.order a = k.composition.order a) ∧
      ∀ uid label, SameRun (k.generate s uid label) (k'.generate s uid label) := by
  intro k k'
  have hcopy : Matches k k' := Matches.copy hgh .algorithms
  have hst := hcopy.reordered
  refine ⟨?_, fun relevant a => ?_, fun a => ?_, hcopy.generate s⟩
  · rw [hst.relevantDatatypes_eq]
  · exact hst.agrees.render_eq (fun _ _ => trivial) trivial
  · exact hst.agrees.order_eq a

/-! ### Two algorithms in two orders -/

open Hyperedge in
/-- Two algorithms, and then the fact that they are. -/
def filtersFirst : Store where
  edges := [
    concept "Blur" "Blur",
    concept "Sharpen" "Sharpen",
    fact "Placed" "IS-A" ["Blur", "Sharpen"] [Vocabulary.algorithm] Vocabulary.isA]
  issued _ := 0
  distinct := by decide +kernel
  tidy := by decide +kernel

open Hyperedge in
/-- The same in another order. -/
def filtersLast : Store where
  edges := [
    fact "Placed" "IS-A" ["Sharpen", "Blur"] [Vocabulary.algorithm] Vocabulary.isA,
    concept "Sharpen" "Sharpen",
    concept "Blur" "Blur"]
  issued _ := 0
  distinct := by decide +kernel
  tidy := by decide +kernel

theorem outputs_filters : Reordered filtersFirst filtersLast ∧ filtersLast.edges ≠ filtersFirst.edges ∧
    let k := Level.algorithms.copy filtersFirst
    let k' := Level.algorithms.copy filtersLast
    k.select "" "" = .ok (.ofList ["Blur", "Sharpen"]) ∧
      k'.render .default (k'.relevantDatatypes .default) "Blur" =
        k.render .default (k.relevantDatatypes .default) "Blur" ∧
      SameRun (k.generate .default "" "") (k'.generate .default "" "") := by
  have hgh : Reordered filtersFirst filtersLast := by decide +kernel
  refine ⟨hgh, by decide +kernel, ?_⟩
  intro k k'
  obtain ⟨hrelevant, hrender, -, hrun⟩ := Reordered.outputs hgh .default
  refine ⟨by decide +kernel, ?_, hrun "" ""⟩
  rw [hrelevant]
  exact hrender _ "Blur"

end Store

end DesignGraph
