import DesignGraph.Proofs.Model.Run
import DesignGraph.Proofs.Relation.Batch

/-! # Assertions commute

An `Assertion` is a call that owns, connects or places instances, needs or provides interfaces, or makes
inputs depend on outputs, with any arguments. Which endpoints it admits is read off the class lattices and
their instances, and no assertion changes these. So an assertion asserts the same facts (`Assertion.keys`)
whenever it is called, and succeeds or fails at any time alike (`Assertion.outcome_eq`). A list of
assertions is one batch of facts (`Assertion.run_eq`), and its order does not show
(`Reached.assertions_commute`). -/

namespace DesignGraph

open Store

/-- An assertion that makes neither classes nor instances, with its arguments. -/
inductive Assertion where
  | hasInterface (components interfaces : List Uid)
  | connectInterface (sources targets : List Uid)
  | partOfNetwork (components networks : List Uid)
  | needsInterface (algorithms inputs : UidSet)
  | providesInterface (algorithms outputs : UidSet)
  | dependsOn (inputs outputs : List Uid)

namespace Assertion

/-- What an assertion gives and leaves. -/
def outcome (g : Store) : Assertion → Outcome
  | hasInterface components interfaces => g.hasInterface components interfaces
  | connectInterface sources targets => g.connectInterface sources targets
  | partOfNetwork components networks => g.partOfNetwork components networks
  | needsInterface algorithms inputs => g.needsInterface algorithms inputs
  | providesInterface algorithms outputs => g.providesInterface algorithms outputs
  | dependsOn inputs outputs => g.dependsOn inputs outputs

/-- The assertion as one of the operations on a model. -/
def operation : Assertion → Operation
  | hasInterface components interfaces => .hasInterface components interfaces
  | connectInterface sources targets => .connectInterface sources targets
  | partOfNetwork components networks => .partOfNetwork components networks
  | needsInterface algorithms inputs => .needsInterface algorithms inputs
  | providesInterface algorithms outputs => .providesInterface algorithms outputs
  | dependsOn inputs outputs => .dependsOn inputs outputs

theorem apply_operation (g : Store) (a : Assertion) : a.operation.apply g = (a.outcome g).store := by
  cases a <;> rfl

/-- The store that a list of assertions leaves, whichever of them succeed. -/
def run (g : Store) (calls : List Assertion) : Store := calls.foldl (fun g a => (a.outcome g).store) g

/-! ### The facts of an assertion -/

/-- The key of the fact between the admitted ones among the endpoints. -/
def keyBetween (relation : Uid) (source target : Side) (sources targets : List Uid) : FactKey :=
  ⟨relation, .ofList (sources.filter fun u => decide (u ∈ source.valid)),
    .ofList (targets.filter fun u => decide (u ∈ target.valid))⟩

theorem assertBetween_eq (g : Store) (relation : Uid) (source target : Side) (sources targets : List Uid) :
    (g.assertBetween relation source target sources targets).result =
        (g.assert (keyBetween relation source target sources targets)).1 ∧
      (g.assertBetween relation source target sources targets).store =
        (g.assert (keyBetween relation source target sources targets)).2 := ⟨rfl, rfl⟩

/-- The fact that components own interfaces. -/
def ownership (g : Store) (components interfaces : List Uid) : FactKey :=
  keyBetween Vocabulary.hasAInterface (.component g) (.interfaceInstance g) components interfaces

/-- The fact that an assertion answers with. -/
def key (g : Store) : Assertion → FactKey
  | hasInterface components interfaces => ownership g components interfaces
  | connectInterface sources targets =>
    keyBetween Vocabulary.connectedTo (.interfaceInstance g) (.interfaceInstance g) sources targets
  | partOfNetwork components networks =>
    keyBetween Vocabulary.partOfNetwork (.componentInstance g) (.network g) components networks
  | needsInterface algorithms inputs =>
    keyBetween Vocabulary.needs (.algorithm g) (.inputInstance g) algorithms.toList inputs.toList
  | providesInterface algorithms outputs =>
    keyBetween Vocabulary.provides (.algorithm g) (.outputInstance g) algorithms.toList outputs.toList
  | dependsOn inputs outputs =>
    keyBetween Vocabulary.dependsOn (.inputInstance g) (.outputInstance g) inputs outputs

/-- All facts that an assertion asserts: what is needed or provided is owned first. -/
def keys (g : Store) : Assertion → List FactKey
  | needsInterface algorithms inputs =>
    [ownership g algorithms.toList inputs.toList, (needsInterface algorithms inputs).key g]
  | providesInterface algorithms outputs =>
    [ownership g algorithms.toList outputs.toList, (providesInterface algorithms outputs).key g]
  | a => [a.key g]

/-- The relation kinds of these facts. -/
def kinds : List Uid := [Vocabulary.hasAInterface, Vocabulary.connectedTo, Vocabulary.partOfNetwork,
  Vocabulary.needs, Vocabulary.provides, Vocabulary.dependsOn]

variable {g h : Store} {a : Assertion} {k : FactKey}

theorem relation_mem_kinds (hk : k ∈ a.keys g) : k.relation ∈ kinds := by
  cases a <;> simp only [keys, List.mem_cons, List.not_mem_nil, or_false] at hk <;>
    rcases hk with rfl | rfl <;> simp [key, ownership, keyBetween, kinds]

theorem key_mem_keys (g : Store) (a : Assertion) : a.key g ∈ a.keys g := by
  cases a <;> simp [keys]

/-! ### Lattices that stay -/

/-- The class lattices and their instances are the same. -/
structure SameLattices (g h : Store) : Prop where
  classes : ∀ root, h.allClasses root = g.allClasses root
  members : ∀ root, h.allMembers root = g.allMembers root

theorem SameLattices.trans {f : Store} (hfg : SameLattices f g) (hgh : SameLattices g h) : SameLattices f h :=
  ⟨fun root => (hgh.classes root).trans (hfg.classes root),
    fun root => (hgh.members root).trans (hfg.members root)⟩

theorem SameLattices.keys_eq (hgh : SameLattices g h) (a : Assertion) :
    a.key h = a.key g ∧ a.keys h = a.keys g := by
  cases a <;>
    simp only [key, keys, ownership, Side.component, Side.componentInstance, Side.network, Side.interfaceInstance,
      Side.algorithm, Side.inputInstance, Side.outputInstance, hgh.classes, hgh.members, and_self]

theorem SameLattices.algorithm_eq (hgh : SameLattices g h) : Side.algorithm h = Side.algorithm g := by
  rw [Side.algorithm, Side.algorithm, hgh.classes, hgh.members]

theorem sameLattices_of_adds {P : Uid → List Uid → List Uid → Prop} (hg : Regular g) (hh : Regular h)
    (hgh : Adds P g h) (hP : ∀ r S T, P r S T → r ∈ kinds) : SameLattices g h := by
  have hisA : ∀ S T, ¬ P Vocabulary.isA S T := fun S T hf => absurd (hP _ S T hf) (by decide)
  have hio : ∀ S T, ¬ P Vocabulary.instanceOf S T := fun S T hf => absurd (hP _ S T hf) (by decide)
  refine ⟨fun root => allClasses_eq hg.closed hgh (hg.root_mem root) hisA, fun root => UidSet.ext fun u => ?_⟩
  exact ⟨allMembers_subset_of_adds hg hh hgh hisA hio, allMembers_mono hgh.extends⟩

/-! ### One assertion -/

theorem declares_of_mem_kinds (hg : Regular g) (hk : k.relation ∈ kinds) : g.Declares k.relation := by
  refine hg.declares ?_
  have hall : ∀ r ∈ kinds, r ∈ [Vocabulary.isA, Vocabulary.instanceOf, Vocabulary.hasA, Vocabulary.partOf,
      Vocabulary.connects, Vocabulary.hasAInterface, Vocabulary.connectedTo, Vocabulary.partOfNetwork,
      Vocabulary.needs, Vocabulary.provides, Vocabulary.dependsOn] := by decide
  exact hall _ hk

theorem keyBetween_full {relation : Uid} {source target : Side} {sources targets : List Uid} :
    (keyBetween relation source target sources targets).Full ↔
      (∃ u ∈ sources, u ∈ source.valid) ∧ ∃ u ∈ targets, u ∈ target.valid := by
  simp only [FactKey.Full, UidSet.isEmpty_eq_false_iff, keyBetween, UidSet.mem_ofList, List.mem_filter,
    decide_eq_true_eq]

/-- What an algorithm may need or provide, it may own. -/
theorem full_ownership (hg : Regular g) {relation : Uid} {root : ClassRoot}
    (hroot : root.uid ∈ g.allClasses .interface) {target : Side} (htarget : target.valid = g.allMembers root)
    {algorithms interfaces : List Uid}
    (hused : (keyBetween relation (.algorithm g) target algorithms interfaces).Full) :
    (ownership g algorithms interfaces).Full := by
  obtain ⟨⟨a, ha, hav⟩, i, hi, hiv⟩ := keyBetween_full.1 hused
  exact keyBetween_full.2 ⟨⟨a, ha, hg.component_of_algorithm hav⟩, i, hi,
    allMembers_subset hroot (htarget ▸ hiv)⟩

/-- **Interfaces of algorithms**: what the second fact would join has been owned by the first one, which has
not changed what is admitted. -/
theorem hasInterfaceAs_eq (hg : Regular g) {relation : Uid} (hrel : relation ∈ kinds) {root : ClassRoot}
    (hroot : root.uid ∈ g.allClasses .interface) {target : Side} (htarget : target.valid = g.allMembers root)
    (algorithms interfaces : UidSet) :
    let owned := ownership g algorithms.toList interfaces.toList
    let used := keyBetween relation (.algorithm g) target algorithms.toList interfaces.toList
    let outcome := g.hasInterfaceAs relation target algorithms interfaces
    (outcome.result.isSome ↔ used.Full) ∧ outcome.store = g.assertAll [owned, used] := by
  intro owned used outcome
  have howned : owned.relation ∈ kinds := by simp [owned, ownership, keyBetween, kinds]
  have hd : g.Declares owned.relation := declares_of_mem_kinds hg howned
  have hfirst : (g.hasInterface algorithms.toList interfaces.toList).result = (g.assert owned).1 ∧
      (g.hasInterface algorithms.toList interfaces.toList).store = (g.assert owned).2 :=
    assertBetween_eq g Vocabulary.hasAInterface (.component g) (.interfaceInstance g) _ _
  by_cases hf : owned.Full
  · have hresult : ¬ (g.hasInterface algorithms.toList interfaces.toList).result.isNone := by
      rw [hfirst.1, ← Option.not_isSome, Bool.not_eq_true', Bool.not_eq_false]
      exact (isSome_assert_iff hd).2 hf
    have hreg : Regular (g.assert owned).2 := (conforming_hasInterface g _ _).regular hg
    have hsame : SameLattices g (g.assert owned).2 :=
      sameLattices_of_adds hg hreg (adds_assertAll g [owned]) fun r _ _ ⟨k, hk, hr⟩ => by
        rw [← hr, List.mem_singleton.1 hk]
        exact howned
    have hsecond : outcome.result = ((g.assert owned).2.assert used).1 ∧
        outcome.store = ((g.assert owned).2.assert used).2 := by
      simp only [outcome, hasInterfaceAs, Outcome.andThen, if_neg hresult, hfirst.2, hsame.algorithm_eq]
      exact ⟨rfl, rfl⟩
    rw [hsecond.1, hsecond.2]
    exact ⟨isSome_assert_iff (declares_of_mem_kinds hreg hrel), rfl⟩
  · have hnone := assert_of_not_full (g := g) hf
    have hresult : (g.hasInterface algorithms.toList interfaces.toList).result.isNone := by rw [hfirst.1, hnone]; rfl
    have hout : outcome = g.hasInterface algorithms.toList interfaces.toList := by
      simp only [outcome, hasInterfaceAs, Outcome.andThen, if_pos hresult]
    have hused : ¬ used.Full := fun h => hf (full_ownership hg hroot htarget h)
    refine ⟨?_, ?_⟩
    · rw [hout, hfirst.1, hnone]
      simpa using hused
    · rw [hout, hfirst.2]
      simp only [assertAll, List.foldl_cons, List.foldl_nil, hnone, assert_of_not_full hused]

/-- **What an assertion does** on a regular model: it asserts its facts, and it succeeds exactly if the fact
that it answers with has both sides. -/
theorem outcome_eq (hg : Regular g) (a : Assertion) :
    ((a.outcome g).result.isSome ↔ (a.key g).Full) ∧ (a.outcome g).store = g.assertAll (a.keys g) := by
  have hsome := isSome_assert_iff (declares_of_mem_kinds hg (relation_mem_kinds (key_mem_keys g a)))
  cases a with
  | needsInterface algorithms inputs =>
    have hroot : ClassRoot.input.uid ∈ g.allClasses .interface := hg.root_below (by decide)
    exact hasInterfaceAs_eq hg (by decide) hroot rfl algorithms inputs
  | providesInterface algorithms outputs =>
    have hroot : ClassRoot.output.uid ∈ g.allClasses .interface := hg.root_below (by decide)
    exact hasInterfaceAs_eq hg (by decide) hroot rfl algorithms outputs
  | _ => exact ⟨hsome, rfl⟩

/-! ### Lists of assertions -/

theorem regular_outcome (hg : Regular g) (a : Assertion) : Regular (a.outcome g).store :=
  apply_operation g a ▸ Operation.regular hg a.operation

/-- **The step**: an assertion leaves the lattices as they are. -/
theorem sameLattices_outcome (hg : Regular g) (a : Assertion) : SameLattices g (a.outcome g).store := by
  have hreg := regular_outcome hg a
  rw [(outcome_eq hg a).2] at hreg ⊢
  refine sameLattices_of_adds hg hreg (adds_assertAll g (a.keys g)) fun r _ _ ⟨k, hk, hr⟩ => ?_
  exact hr ▸ relation_mem_kinds hk

/-- **The run**: a list of assertions asserts the facts that each of them would assert at the start. -/
theorem run_eq (hg : Regular g) (calls : List Assertion) :
    run g calls = g.assertAll (calls.flatMap (keys g)) ∧ Regular (run g calls) ∧ SameLattices g (run g calls) := by
  induction calls generalizing g with
  | nil => exact ⟨rfl, hg, fun _ => rfl, fun _ => rfl⟩
  | cons a calls ih =>
    have hsame := sameLattices_outcome hg a
    obtain ⟨hrun, hreg, hrest⟩ := ih (regular_outcome hg a)
    refine ⟨?_, hreg, hsame.trans hrest⟩
    have hkeys : keys (a.outcome g).store = keys g := funext fun b => (hsame.keys_eq b).2
    rw [List.flatMap_cons, assertAll_append, ← (outcome_eq hg a).2, ← hkeys]
    exact hrun

end Assertion

namespace Reached

open Assertion

/-- **Assertions commute.** On any model that was built, and for any list of assertions with any arguments,
the order of the list does not matter: what the facts say afterwards is the same, each as often, and every
assertion of the list succeeds wherever it stands or nowhere. -/
theorem assertions_commute {g : Store} (hg : Reached Operation.Modelling g) {calls calls' : List Assertion}
    (hperm : calls.Perm calls') :
    (run g calls).statements.Perm (run g calls').statements ∧
      ∀ before a after before' after', calls = before ++ a :: after → calls' = before' ++ a :: after' →
        ((a.outcome (run g before)).result.isSome ↔ (a.outcome (run g before')).result.isSome) := by
  have hreg := hg.regular
  refine ⟨?_, fun before a after before' after' _ _ => ?_⟩
  · rw [(run_eq hreg calls).1, (run_eq hreg calls').1]
    have hkinds : ∀ k ∈ calls.flatMap (keys g), k.relation ∈ kinds := by
      intro k hk
      obtain ⟨a, -, hk⟩ := List.mem_flatMap.1 hk
      exact relation_mem_kinds hk
    have hne : ∀ r ∈ kinds, r ≠ "" := by decide
    exact statements_perm (fun k hk => declares_of_mem_kinds hreg (hkinds k hk)) (fun k hk => hne _ (hkinds k hk))
      fun k => (hperm.flatMap_right (keys g)).mem_iff
  · have hsucceeds : ∀ earlier, (a.outcome (run g earlier)).result.isSome ↔ (a.key g).Full := by
      intro earlier
      obtain ⟨-, hlater, hsame⟩ := run_eq hreg earlier
      rw [(outcome_eq hlater a).1, (hsame.keys_eq a).1]
    rw [hsucceeds before, hsucceeds before']

/-- An algorithm, an input and an output that nothing has been asserted about yet. -/
def unwired : List Operation := edgeFilter.take 5

/-- Assertions on them, of which one fails and one comes twice. -/
def wiring : List Assertion := [
  .needsInterface (.single "Filter") (.single "Pixel1"),
  .connectInterface ["Filter"] ["Pixel1"],
  .dependsOn ["Pixel1"] ["Edge1"],
  .dependsOn ["Pixel1"] ["Edge1"]]

theorem assertions_commute_wiring :
    let g := unwired.foldl Operation.apply Store.blank
    Reached Operation.Modelling g ∧ wiring.Perm wiring.reverse ∧
      (run g wiring).statements ≠ (run g wiring.reverse).statements ∧
      (run g wiring).statements.Perm (run g wiring.reverse).statements ∧
      ∀ before a after before' after', wiring = before ++ a :: after → wiring.reverse = before' ++ a :: after' →
        ((a.outcome (run g before)).result.isSome ↔ (a.outcome (run g before')).result.isSome) := by
  have hg : Reached Operation.Modelling (unwired.foldl Operation.apply Store.blank) :=
    Reached.blank.foldl (by simp [unwired, edgeFilter, Operation.Modelling])
  have hperm : wiring.Perm wiring.reverse := (List.reverse_perm wiring).symm
  exact ⟨hg, hperm, by decide +kernel, assertions_commute hg hperm⟩

end Reached

end DesignGraph
