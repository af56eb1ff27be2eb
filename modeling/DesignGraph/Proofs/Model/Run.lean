import DesignGraph.Proofs.Model.Typing

/-! # What runs keep

Every model that operations lead to is regular, deep copies included (`Reached.regular`), so that deep
copies never fail on it. As long as there are no deep copies, every operation and every run of the
generator adds conforming facts only.

* `Reached.typed_and_owned`: without deep copies inputs and outputs are interfaces, facts observe the
  signatures of their kinds, and all that is needed or provided is owned. -/

namespace DesignGraph

open Store

/-! ### Runs of the generator -/

namespace Entity.Trace

theorem conforming_persist (s : Settings) (t : Trace) (algorithm : Uid) (name text : String) :
    Conforming t.store (persist s t algorithm name text).2.store := by
  let o₁ := t.store.createClass .implementation s.implementationUid s.implementationLabel ∅
  let o₂ := o₁.store.createClass .implementation (implementationUid s name) text
    (.single s.implementationUid)
  have h₂ : Conforming t.store o₂.store :=
    (conforming_createClass t.store _ _ _ _).trans (conforming_createClass o₁.store _ _ _ _)
  have h₃ := h₂.trans (grows_setLabel _ _ (implementationUid s name) text)
  have h₄ := h₃.trans (conforming_realizes _ [implementationUid s name] [algorithm])
  -- the class may be refused, and so may be the fact that it realizes the algorithm
  by_cases hc : o₂.result.isNone
  · have hp : (persist s t algorithm name text).2.store = o₂.store :=
      congrArg (fun x : Except Failure Uid × Trace => x.2.store) (if_pos hc)
    rw [hp]
    exact h₂
  · have hp : (persist s t algorithm name text).2.store =
        ((o₂.store.setLabel (implementationUid s name) text).realizes [implementationUid s name]
          [algorithm]).store := by
      refine (congrArg (fun x : Except Failure Uid × Trace => x.2.store) (if_neg hc)).trans ?_
      dsimp only
      split <;> rfl
    rw [hp]
    exact h₄

theorem conforming_generateEntity (s : Settings) (relevant : UidSet) (t : Trace) (algorithm : Uid) :
    Conforming t.store (generateEntity s relevant t algorithm).2.store := by
  unfold generateEntity
  split
  · exact .refl _
  · simp only
    have h := conforming_persist s
      (t.note (t.store.typeNotices relevant (t.store.context algorithm))) algorithm
      (t.store.context algorithm).name
      (t.store.design s relevant (t.store.context algorithm)).text
    split
    · rename_i he
      rw [he] at h
      exact h
    · rename_i he
      rw [he] at h
      exact h

theorem conforming_generateNext (s : Settings) (relevant : UidSet) (state : Report × Trace)
    (algorithm : Uid) : Conforming state.2.store (generateNext s relevant state algorithm).2.store := by
  have h := conforming_generateEntity s relevant state.2 algorithm
  unfold generateNext
  simp only
  split
  · rename_i he
    rw [he] at h
    exact h
  · rename_i he
    rw [he] at h
    exact h

theorem conforming_foldl_generateNext (s : Settings) (relevant : UidSet) (algorithms : List Uid) :
    ∀ state : Report × Trace,
      Conforming state.2.store (algorithms.foldl (generateNext s relevant) state).2.store := by
  induction algorithms with
  | nil => exact fun state => .refl _
  | cons a l ih => exact fun state => (conforming_generateNext s relevant state a).trans (ih _)

end Entity.Trace

namespace Store

theorem conforming_generate (g : Store) (s : Settings) (uid label : String) :
    Conforming g ((Operation.generate s uid label).apply g) := by
  unfold Operation.apply
  simp only
  split
  · exact .refl g
  · rename_i hgen
    unfold generate at hgen
    split at hgen
    · cases hgen
    · simp only [Except.ok.injEq, Prod.mk.injEq] at hgen
      obtain ⟨-, rfl⟩ := hgen
      exact Entity.Trace.conforming_foldl_generateNext s _ _ _

end Store

/-! ### Operations -/

/-- **The step**: an operation other than a deep copy adds conforming facts only. -/
theorem Operation.conforming {g : Store} (hg : Regular g) {op : Operation} (hop : op.Shallow) :
    Conforming g (op.apply g) := by
  cases op with
  | createClass root u label superclasses => exact conforming_createClass g root u label superclasses
  | instantiate classes label => exact conforming_instantiate g classes label
  | instantiateComponents classes => exact hop.elim
  | hasInterface components interfaces => exact conforming_hasInterface g components interfaces
  | connectInterface sources targets => exact conforming_connectInterface g sources targets
  | partOfNetwork components networks => exact conforming_partOfNetwork g components networks
  | exportInterfaces networks interfaces => exact conforming_exportInterfaces g networks interfaces
  | needsInterface algorithms inputs => exact conforming_needsInterface hg algorithms inputs
  | providesInterface algorithms outputs => exact conforming_providesInterface hg algorithms outputs
  | dependsOn inputs outputs => exact conforming_dependsOn g inputs outputs
  | realizes implementations algorithms => exact conforming_realizes g implementations algorithms
  | generate settings uid label => exact conforming_generate g settings uid label

theorem Operation.regular {g : Store} (hg : Regular g) (op : Operation) : Regular (op.apply g) := by
  by_cases hop : op.Shallow
  · exact (op.conforming hg hop).regular hg
  · cases op with
    | instantiateComponents classes =>
      obtain ⟨tops, h, hok, hturn⟩ := hg.instantiateDeep_ok (classes ∩ g.allClasses .component)
      have : (instantiateComponents classes).apply g = h := congrArg Prod.snd hok
      rw [this]
      exact hg.copiedInTurn hturn
    | _ => exact absurd trivial hop

namespace Reached

variable {admits : Operation → Prop} {g : Store}

/-- **Every reached model is regular**. -/
theorem regular (hg : Reached admits g) : Regular g := by
  induction hg with
  | blank => exact regular_blank
  | apply _ _ ih => exact Operation.regular ih _

/-- A list of admitted operations, one after the other. -/
theorem foldl {ops : List Operation} (hg : Reached admits g) (hops : ∀ op ∈ ops, admits op) :
    Reached admits (ops.foldl Operation.apply g) := by
  induction ops generalizing g with
  | nil => exact hg
  | cons op ops ih => exact ih (hg.apply (hops op (by simp))) fun op' h => hops op' (by simp [h])

/-- **Typing**: however often operations other than deep copies are called, and with whatever uids, every
input and every output is an interface, all facts observe the signatures, and whatever is needed or
provided is owned as an interface. -/
theorem typed_and_owned (hg : Reached Operation.Shallow g) :
    (∀ u, u ∈ g.allMembers .input ∨ u ∈ g.allMembers .output → u ∈ g.allMembers .interface) ∧
      g.Typed ∧ g.Owned := by
  have hbelow : ∀ root, root = ClassRoot.input ∨ root = ClassRoot.output →
      root.uid ∈ g.allClasses .interface := by
    rintro root (rfl | rfl) <;> exact hg.regular.root_below (by decide)
  refine ⟨fun u hu => ?_, ?_⟩
  · rcases hu with hu | hu
    · exact allMembers_subset (hbelow _ (.inl rfl)) hu
    · exact allMembers_subset (hbelow _ (.inr rfl)) hu
  · clear hbelow
    induction hg with
    | blank =>
      have huntyped : ∀ f ∈ vocabulary.facts, ∀ s ∈ signatures, f.1 ≠ s.relation := by decide +kernel
      have hsig : ∀ r ∈ [Vocabulary.needs, Vocabulary.provides], ∃ s ∈ signatures, s.relation = r := by
        decide
      refine ⟨fun s hs S T hf => ?_, fun r hr a i => ?_⟩
      · obtain ⟨e, he, -, -⟩ := asserts_blank hf
        exact absurd rfl (huntyped _ he s hs)
      · rintro ⟨S, T, hf, -⟩
        obtain ⟨s, hs, rfl⟩ := hsig r hr
        obtain ⟨e, he, -, -⟩ := asserts_blank hf
        exact absurd rfl (huntyped _ he s hs)
    | apply hg hop ih =>
      have hstep := Operation.conforming hg.regular hop
      exact ⟨hstep.typed ih.1, hstep.owned ih.2⟩

/-- An algorithm that needs one input and provides one output, on which the input depends. -/
def edgeFilter : List Operation := [
  .createClass .algorithm "Filter" "" ∅,
  .createClass .input "Pixel" "" ∅,
  .createClass .output "Edge" "" ∅,
  .instantiate (.single "Pixel") "in",
  .instantiate (.single "Edge") "out",
  .needsInterface (.single "Filter") (.single "Pixel1"),
  .providesInterface (.single "Filter") (.single "Edge1"),
  .dependsOn ["Pixel1"] ["Edge1"]]

theorem typed_and_owned_edgeFilter :
    let g := edgeFilter.foldl Operation.apply Store.blank
    g.Asserts Vocabulary.needs ["Filter"] ["Pixel1"] ∧ Reached Operation.Shallow g ∧
      (∀ u, u ∈ g.allMembers .input ∨ u ∈ g.allMembers .output → u ∈ g.allMembers .interface) ∧
      g.Typed ∧ g.Owned := by
  have hg : Reached Operation.Shallow (edgeFilter.foldl Operation.apply Store.blank) :=
    Reached.blank.foldl (by simp [edgeFilter, Operation.Shallow])
  exact ⟨by decide +kernel, hg, typed_and_owned hg⟩

end Reached

end DesignGraph
