import DesignGraph.Proofs.Entity.Failure
import DesignGraph.Proofs.Model.Operation
import DesignGraph.Proofs.Store.Edit

/-! # Operations are edits

Making classes and instances, asserting, copying deeply and generating are edits that fill each fresh uid
they take (`Store.Fills`), on any store and whether they succeed or fail. Labels are set by the generator
alone: only those of the classes that hold its texts (`Settings.Holds`). -/

namespace DesignGraph

namespace Store

variable {P : Uid → Prop} {ε α β γ : Type}

/-! ### Computations that may fail -/

/-- A computation leaves edits of `g`, whether it fails or not. Both its failures and its values tell which
store is left. -/
def Leaves (P : Uid → Prop) (g : Store) (failed : ε → Store) (done : α → Store) : Except ε α → Prop
  | .error e => Fills P g (failed e)
  | .ok a => Fills P g (done a)

variable {failed : ε → Store} {done : α → Store} {next : β → Store}

/-- Edits before a computation count among those that it leaves. -/
theorem Leaves.after {f g : Store} {x : Except ε α} (hfg : Fills P f g) (hx : Leaves P g failed done x) :
    Leaves P f failed done x := by
  cases x with
  | error e => exact hfg.trans hx
  | ok a => exact hfg.trans hx

theorem Leaves.bind {g : Store} {x : Except ε α} {f : α → Except ε β} (hx : Leaves P g failed done x)
    (hf : ∀ a, Leaves P (done a) failed next (f a)) : Leaves P g failed next (x >>= f) := by
  cases x with
  | error e => exact hx
  | ok a => exact .after hx (hf a)

theorem leaves_foldlM {f : α → γ → Except ε α} (hf : ∀ a x, Leaves P (done a) failed done (f a x))
    (l : List γ) : ∀ a, Leaves P (done a) failed done (l.foldlM f a) := by
  induction l with
  | nil => exact fun _ => .refl
  | cons x l ih =>
    intro a
    rw [List.foldlM_cons]
    exact (hf a x).bind ih

/-! ### Instances -/

theorem fills_instantiate (P : Uid → Prop) (g : Store) (classes : UidSet) (label : String) :
    Fills P g (g.instantiate classes label).2 := by
  unfold instantiate
  simp only
  split
  · exact .refl
  · exact (fills_create_nextFree P g _ _).trans (fills_relateFrom P _ _ _ _)

end Store

open Store

namespace Copying

variable (P : Uid → Prop)

theorem fills_copyChild {c c' : Copying} {child copy : Uid} (h : c.copyChild child = some (copy, c')) :
    Fills P c.store c'.store := by
  unfold copyChild at h
  split at h
  · cases h
    exact .refl
  · simp only at h
    split at h
    · cases h
    · rename_i hmade
      cases h
      have hfills := fills_instantiate P c.store
        (if (c.store.classesOf child).isEmpty then .single child else c.store.classesOf child)
        (c.store.labelOf child)
      rw [hmade] at hfills
      exact hfills

theorem leaves_attach (owner : Uid) (ownerEnd : End) (r : Uid) (c : Copying) (child : Uid) :
    Leaves P c.store id store (attach owner ownerEnd r c child) := by
  unfold attach
  split
  · exact .refl
  · rename_i hcopy
    cases ownerEnd <;> exact (fills_copyChild P hcopy).trans (fills_relateFrom P _ _ _ _)

theorem leaves_attachAll (kinds : UidSet) (template owner : Uid) (ownerEnd : End) (c : Copying) :
    Leaves P c.store id store (attachAll kinds template owner ownerEnd c) := by
  have hlink : ∀ (c : Copying) (link : Uid × List Uid),
      Leaves P c.store id store (link.2.foldlM (attach owner ownerEnd link.1) c) := fun c link =>
    leaves_foldlM (leaves_attach P owner ownerEnd link.1) link.2 c
  exact leaves_foldlM hlink _ c

theorem leaves_expand (owning containing : UidSet) (template : Uid) (c : Copying) :
    Leaves P c.store id store (expand owning containing template c) :=
  (leaves_attachAll P owning template _ .source c).bind fun c =>
    leaves_attachAll P containing template _ .target c

theorem leaves_run (owning containing : UidSet) : ∀ (n : Nat) (c : Copying),
    Leaves P c.store Prod.snd store (run owning containing n c) := by
  intro n
  induction n with
  | zero =>
    intro c
    unfold run
    split <;> exact .refl
  | succ n ih =>
    intro c
    unfold run
    split
    · exact .refl
    · rename_i template todo _
      have hstep := leaves_expand P owning containing template { c with todo }
      simp only
      split
      · rename_i hexpand
        rw [hexpand] at hstep
        exact hstep
      · rename_i c' hexpand
        rw [hexpand] at hstep
        exact .after hstep (ih c')

theorem fills_connectCopies (copies : List (Uid × Uid)) (g : Store) (f : Uid × Hyperedge) :
    Fills P g (connectCopies copies g f) := by
  unfold connectCopies
  simp only
  split
  · exact fills_relateFrom P g _ _ _
  · exact .refl

theorem fills_connect (c : Copying) : Fills P c.store c.connect :=
  fills_foldl (fills_connectCopies P c.copies) _ c.store

end Copying

namespace Store

variable (P : Uid → Prop)

theorem leaves_instantiateClass (owning containing : UidSet) (g : Store) (u : Uid) :
    Leaves P g Prod.snd Prod.snd (instantiateClass owning containing g u) := by
  have hmade := fills_instantiate P g (.single u) ""
  unfold instantiateClass
  split
  · rename_i hnone
    rw [hnone] at hmade
    exact hmade
  · rename_i top g' hsome
    rw [hsome] at hmade
    have hwalk := Copying.leaves_run P owning containing (Copying.stepBound g') ⟨g', [(u, top)], [u]⟩
    exact (hwalk.after hmade).bind fun c => Copying.fills_connect P c

theorem leaves_instantiateNext (owning containing : UidSet) (made : UidSet × Store) (u : Uid) :
    Leaves P made.2 Prod.snd Prod.snd (instantiateNext owning containing made u) :=
  (leaves_instantiateClass P owning containing made.2 u).bind fun _ => .refl

theorem fills_instantiateDeep (g : Store) (classes : UidSet) : Fills P g (g.instantiateDeep classes).2 := by
  have hall : Leaves P g Prod.snd Prod.snd (classes.toList.foldlM
      (instantiateNext (g.subrelations (.single Vocabulary.hasA)) (g.subrelations (.single Vocabulary.partOf)))
      (∅, g)) := leaves_foldlM (leaves_instantiateNext P _ _) classes.toList (∅, g)
  unfold instantiateDeep
  simp only
  split
  · rename_i hok
    rw [hok] at hall
    exact hall
  · rename_i herror
    rw [herror] at hall
    exact hall

/-! ### Classes and assertions -/

theorem fills_createClass (g : Store) (root : ClassRoot) (u : Uid) (label : String) (superclasses : UidSet) :
    Fills P g (g.createClass root u label superclasses).store := by
  rcases createClass_cases g root u label superclasses with ⟨-, h, -⟩ | ⟨-, -, -, h⟩
  · rw [h]
    exact .refl
  · rw [h]
    exact (fills_create P g u label).trans (fills_relateFrom P _ _ _ _)

theorem fills_assertBetween (g : Store) (relation : Uid) (source target : Side) (sources targets : List Uid) :
    Fills P g (g.assertBetween relation source target sources targets).store :=
  fills_relateFrom P g _ _ _

theorem fills_exportInterfaces (g : Store) (networks : UidSet) (interfaces : List Uid) :
    Fills P g (g.exportInterfaces networks interfaces).store := by
  unfold exportInterfaces
  simp only
  split
  · exact .refl
  · exact fills_assertBetween P g _ _ _ _ _

theorem fills_hasInterfaceAs (g : Store) (relation : Uid) (target : Side) (algorithms interfaces : UidSet) :
    Fills P g (g.hasInterfaceAs relation target algorithms interfaces).store := by
  unfold hasInterfaceAs Outcome.andThen
  split
  · exact fills_assertBetween P g _ _ _ _ _
  · exact (fills_assertBetween P g _ _ _ _ _).trans (fills_assertBetween P _ _ _ _ _ _)

end Store

/-! ### Runs of the generator -/

/-- The uid is that of a class that holds a text. -/
def Settings.Holds (s : Settings) (u : Uid) : Prop := ∃ name, u = Entity.Trace.implementationUid s name

namespace Entity.Trace

theorem fills_persist (s : Settings) (t : Trace) (a : Uid) (name text : String) :
    Fills (· = implementationUid s name) t.store (persist s t a name text).2.store := by
  have hholder : Fills (· = implementationUid s name) t.store (holder s t.store name text).store :=
    (fills_createClass _ t.store _ _ _ _).trans (fills_createClass _ _ _ _ _ _)
  have hlabelled : Fills (· = implementationUid s name) t.store (labelled s t.store name text) :=
    hholder.trans (fills_setLabel (P := (· = implementationUid s name)) rfl _ text)
  by_cases hc : (holder s t.store name text).result.isNone
  · have hp : persist s t a name text = (_, _) := if_pos hc
    rw [hp]
    exact hholder
  · have hp : persist s t a name text =
        if ((labelled s t.store name text).realizes [implementationUid s name] [a]).result.isNone then
          (_, _) else (_, _) := if_neg hc
    rw [hp]
    split <;> exact hlabelled.trans (fills_assertBetween _ _ _ _ _ _ _)

theorem fills_generateEntity (s : Settings) (relevant : UidSet) (t : Trace) (a : Uid) :
    Fills s.Holds t.store (generateEntity s relevant t a).2.store := by
  unfold generateEntity
  split
  · exact .refl
  · simp only
    have h := (fills_persist s (t.note (t.store.typeNotices relevant (t.store.context a))) a
      (t.store.context a).name (t.store.design s relevant (t.store.context a)).text).mono
        fun u hu => (⟨_, hu⟩ : s.Holds u)
    split
    · rename_i he
      rw [he] at h
      exact h
    · rename_i he
      rw [he] at h
      exact h

theorem fills_generateNext (s : Settings) (relevant : UidSet) (state : Report × Trace) (a : Uid) :
    Fills s.Holds state.2.store (generateNext s relevant state a).2.store := by
  have h := fills_generateEntity s relevant state.2 a
  unfold generateNext
  simp only
  split
  · rename_i he
    rw [he] at h
    exact h
  · rename_i he
    rw [he] at h
    exact h

theorem fills_foldl_generateNext (s : Settings) (relevant : UidSet) (algorithms : List Uid) :
    ∀ state : Report × Trace,
      Fills s.Holds state.2.store (algorithms.foldl (generateNext s relevant) state).2.store := by
  induction algorithms with
  | nil => exact fun _ => .refl
  | cons a l ih => exact fun state => (fills_generateNext s relevant state a).trans (ih _)

end Entity.Trace

namespace Store

/-- **A run of the generator** is a list of edits, which sets the labels of the classes that hold texts
only. -/
theorem fills_generate {g : Store} {s : Settings} {uid label : String} {r : Entity.Report} {t : Entity.Trace}
    (h : g.generate s uid label = .ok (r, t)) : Fills s.Holds g t.store := by
  obtain ⟨targets, -, -, rfl⟩ := generate_eq_ok.1 h
  exact Entity.Trace.fills_foldl_generateNext s (g.relevantDatatypes s) (g.plan s targets).order
    (⟨[], g.skipped s targets⟩,
      (Entity.Trace.start g).note ((g.skipped s targets).map fun c => .skipped c.1 c.2))

end Store

end DesignGraph
