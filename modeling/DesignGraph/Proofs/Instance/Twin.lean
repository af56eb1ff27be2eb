import DesignGraph.Network.Factory
import DesignGraph.Proofs.Store.Twin

/-! # Instances of twins

Making an instance and making a deep copy do the same on stores with the same edges, whatever numbers they
have handed out: the results are equal, failures included, and what is left are twins again
(`Twin.instantiate`, `Twin.instantiateDeep`). Two walks of a deep copy stay in step because a walk is
decided by the edges, the copies made and the templates queued (`Copying.Alike`). -/

namespace DesignGraph

/-- Two computations that both fail or both succeed, with related failures or related values. -/
inductive Agree {ε α : Type} (F : ε → ε → Prop) (R : α → α → Prop) : Except ε α → Except ε α → Prop
  | error {e e' : ε} (h : F e e') : Agree F R (.error e) (.error e')
  | ok {a a' : α} (h : R a a') : Agree F R (.ok a) (.ok a')

namespace Agree

variable {ε α β γ : Type} {F : ε → ε → Prop} {R : α → α → Prop} {S : β → β → Prop}

theorem bind {x y : Except ε α} {f f' : α → Except ε β} (hxy : Agree F R x y)
    (hf : ∀ a a', R a a' → Agree F S (f a) (f' a')) : Agree F S (x >>= f) (y >>= f') := by
  cases hxy with
  | error h => exact .error h
  | ok h => exact hf _ _ h

theorem foldlM {f f' : α → γ → Except ε α} (hf : ∀ a a' x, R a a' → Agree F R (f a x) (f' a' x))
    (l : List γ) : ∀ {a a' : α}, R a a' → Agree F R (l.foldlM f a) (l.foldlM f' a') := by
  induction l with
  | nil => exact fun h => .ok h
  | cons x l ih =>
    intro a a' h
    rw [List.foldlM_cons, List.foldlM_cons]
    exact (hf a a' x h).bind fun _ _ => ih

end Agree

namespace Store.Twin

variable {g h : Store} (hgh : Twin g h)

include hgh

/-! ### Single instances -/

theorem create_nextFree (base : Uid) (label : String) :
    Twin ((g.nextFree base).2.create (g.nextFree base).1 label).2
      ((h.nextFree base).2.create (h.nextFree base).1 label).2 := by
  rw [hgh.nextFree_eq base, Store.create, Store.create, if_neg (nextFree_ne_empty g base),
    if_neg (nextFree_ne_empty g base)]
  exact hgh.insert_nextFree rfl (by simp [Hyperedge.concept])

theorem instantiate (classes : UidSet) (label : String) :
    Alike (g.instantiate classes label) (h.instantiate classes label) := by
  have hknown : h.known classes = g.known classes := hgh.reads (·.known classes) fun _ => rfl
  unfold Store.instantiate
  rw [hknown]
  cases hfirst : (g.known classes).toList.head? with
  | none => exact ⟨by simp only [hfirst], by simpa only [hfirst] using hgh⟩
  | some first =>
    have hlabel : h.labelOf first = g.labelOf first := hgh.reads (·.labelOf first) fun _ => rfl
    have hlabel' : ∀ k : Store, (k.nextFree first).2.labelOf first = k.labelOf first := fun _ => rfl
    have hnew := hgh.create_nextFree first (if label = "" then g.labelOf first else label)
    have hfact := hnew.relateFrom Vocabulary.instanceOf (.single (g.nextFree first).1) (g.known classes)
    simp only [hfirst, hlabel', hlabel, instanceOf, hgh.nextFree_eq first] at hfact ⊢
    exact ⟨rfl, hfact.2⟩

end Store.Twin

/-! ### Deep copies -/

namespace Copying

open Store (Twin)

/-- Two walks in step: the same copies and the same templates queued, on twins. -/
structure Alike (c c' : Copying) : Prop where
  store : Twin c.store c'.store
  copies : c'.copies = c.copies
  todo : c'.todo = c.todo

/-- Two ways of giving up: the same failure, on twins. -/
def Forsaken (e e' : Failure × Store) : Prop := e'.1 = e.1 ∧ Twin e.2 e'.2

namespace Alike

variable {c c' : Copying} (hc : Alike c c')

include hc

theorem join (relation : Uid) (S T : UidSet) :
    Alike { c with store := (c.store.relateFrom relation S T).2 }
      { c' with store := (c'.store.relateFrom relation S T).2 } :=
  ⟨(hc.store.relateFrom relation S T).2, hc.copies, hc.todo⟩

theorem attach (owner : Uid) (ownerEnd : End) (relation child : Uid) :
    Agree Twin Alike (attach owner ownerEnd relation c child) (attach owner ownerEnd relation c' child) := by
  unfold Copying.attach copyChild
  rw [hc.copies]
  cases c.copies.lookup child with
  | some copy => cases ownerEnd <;> exact .ok (hc.join _ _ _)
  | none =>
    have hclasses : c'.store.classesOf child = c.store.classesOf child :=
      hc.store.reads (·.classesOf child) fun _ => rfl
    have hlabel : c'.store.labelOf child = c.store.labelOf child :=
      hc.store.reads (·.labelOf child) fun _ => rfl
    simp only [hclasses, hlabel]
    generalize (if (c.store.classesOf child).isEmpty = true then UidSet.single child
      else c.store.classesOf child) = classes
    obtain ⟨copy, g, h, hnew, hnew', hgh⟩ :=
      (hc.store.instantiate classes (c.store.labelOf child)).exists_eq
    rw [hnew, hnew']
    cases copy with
    | none => exact .error hc.store
    | some copy =>
      have hmade : Alike ⟨g, (child, copy) :: c.copies, c.todo ++ [child]⟩
          ⟨h, (child, copy) :: c.copies, c'.todo ++ [child]⟩ := ⟨hgh, rfl, by rw [hc.todo]⟩
      cases ownerEnd <;> exact .ok (hmade.join _ _ _)

theorem attachAll (kinds : UidSet) (template owner : Uid) (ownerEnd : End) :
    Agree Twin Alike (attachAll kinds template owner ownerEnd c)
      (attachAll kinds template owner ownerEnd c') := by
  have hlinks : links c'.store kinds template ownerEnd = links c.store kinds template ownerEnd :=
    hc.store.reads (links · kinds template ownerEnd) fun _ => by cases ownerEnd <;> rfl
  unfold Copying.attachAll
  rw [hlinks]
  exact Agree.foldlM (fun _ _ link hd =>
    Agree.foldlM (fun _ _ child hd' => hd'.attach owner ownerEnd link.1 child) link.2 hd) _ hc

theorem expand (owning containing : UidSet) (template : Uid) :
    Agree Twin Alike (expand owning containing template c) (expand owning containing template c') := by
  unfold Copying.expand
  rw [hc.copies]
  exact (hc.attachAll owning template _ .source).bind fun _ _ hd => hd.attachAll containing template _ .target

omit hc in
theorem run (owning containing : UidSet) (n : Nat) : ∀ {c c' : Copying}, Alike c c' →
    Agree Forsaken Alike (run owning containing n c) (run owning containing n c') := by
  induction n with
  | zero =>
    intro c c' hc
    unfold Copying.run
    rw [hc.todo]
    cases c.todo with
    | nil => exact .ok hc
    | cons template todo => exact .error ⟨rfl, hc.store⟩
  | succ n ih =>
    intro c c' hc
    unfold Copying.run
    rw [hc.todo]
    cases c.todo with
    | nil => exact .ok hc
    | cons template todo =>
      have hrest : Alike { c with todo } { c' with todo } := ⟨hc.store, hc.copies, rfl⟩
      have hstep := hrest.expand owning containing template
      dsimp only
      generalize Copying.expand owning containing template { c with todo } = x at hstep ⊢
      generalize Copying.expand owning containing template { c' with todo } = x' at hstep ⊢
      cases hstep with
      | error h => exact .error ⟨rfl, h⟩
      | ok h => exact ih h

theorem connect : Twin c.connect c'.connect := by
  have hfacts : c'.store.facts = c.store.facts := hc.store.reads Store.facts fun _ => rfl
  have hkinds : c'.store.subrelations (.single Vocabulary.connects) =
      c.store.subrelations (.single Vocabulary.connects) :=
    hc.store.reads (·.subrelations (.single Vocabulary.connects)) fun _ => rfl
  have hstep : ∀ {g h : Store} (f : Uid × Hyperedge), Twin g h →
      Twin (connectCopies c.copies g f) (connectCopies c.copies h f) := by
    intro g h f hgh
    unfold connectCopies
    dsimp only
    split
    · exact (hgh.relateFrom _ _ _).2
    · exact hgh
  unfold Copying.connect
  rw [hc.copies, hfacts, hkinds]
  dsimp only
  generalize c.store.facts.filter _ = facts
  have hfold : ∀ {g h : Store}, Twin g h →
      Twin (facts.foldl (connectCopies c.copies) g) (facts.foldl (connectCopies c.copies) h) := by
    induction facts with
    | nil => exact id
    | cons f facts ih => exact fun hgh => ih (hstep f hgh)
  exact hfold hc.store

end Alike

end Copying

namespace Store

namespace Twin

open Copying (Forsaken)

variable {g h : Store}

theorem instantiateClass (hgh : Twin g h) (owning containing : UidSet) (u : Uid) :
    Agree Forsaken Alike (instantiateClass owning containing g u) (instantiateClass owning containing h u) := by
  obtain ⟨top, g', h', hnew, hnew', hgh'⟩ := (hgh.instantiate (.single u) "").exists_eq
  unfold Store.instantiateClass
  rw [hnew, hnew']
  cases top with
  | none => exact .ok ⟨rfl, hgh'⟩
  | some top =>
    have hbound : Copying.stepBound h' = Copying.stepBound g' := hgh'.reads Copying.stepBound fun _ => rfl
    have hstart : Copying.Alike ⟨g', [(u, top)], [u]⟩ ⟨h', [(u, top)], [u]⟩ := ⟨hgh', rfl, rfl⟩
    dsimp only
    rw [hbound]
    exact (Copying.Alike.run owning containing _ hstart).bind fun _ _ hc => .ok ⟨rfl, hc.connect⟩

end Twin

theorem Alike.instantiateNext {m m' : UidSet × Store} (hm : Alike m m') (owning containing : UidSet)
    (u : Uid) : Agree Copying.Forsaken Alike (instantiateNext owning containing m u)
      (instantiateNext owning containing m' u) := by
  obtain ⟨tops, g, h, rfl, rfl, hgh⟩ := hm.exists_eq
  refine (hgh.instantiateClass owning containing u).bind fun t t' ht => ?_
  obtain ⟨top, k, k', rfl, rfl, hk⟩ := ht.exists_eq
  exact .ok ⟨rfl, hk⟩

namespace Twin

open Copying (Forsaken)

variable {g h : Store}

/-- Deep copies of twins are the same, and leave twins. -/
theorem instantiateDeep (hgh : Twin g h) (classes : UidSet) :
    Alike (g.instantiateDeep classes) (h.instantiateDeep classes) := by
  have howning : h.subrelations (.single Vocabulary.hasA) = g.subrelations (.single Vocabulary.hasA) :=
    hgh.reads (·.subrelations (.single Vocabulary.hasA)) fun _ => rfl
  have hcontaining : h.subrelations (.single Vocabulary.partOf) = g.subrelations (.single Vocabulary.partOf) :=
    hgh.reads (·.subrelations (.single Vocabulary.partOf)) fun _ => rfl
  unfold Store.instantiateDeep
  rw [howning, hcontaining]
  generalize g.subrelations (.single Vocabulary.hasA) = owning
  generalize g.subrelations (.single Vocabulary.partOf) = containing
  have hstart : Alike ((∅ : UidSet), g) (∅, h) := ⟨rfl, hgh⟩
  have hall : Agree Forsaken Alike (classes.toList.foldlM (instantiateNext owning containing) (∅, g))
      (classes.toList.foldlM (instantiateNext owning containing) (∅, h)) :=
    Agree.foldlM (fun _ _ u hm => hm.instantiateNext owning containing u) _ hstart
  dsimp only
  generalize classes.toList.foldlM (instantiateNext owning containing) (∅, g) = x at hall ⊢
  generalize classes.toList.foldlM (instantiateNext owning containing) (∅, h) = x' at hall ⊢
  cases hall with
  | error he => exact ⟨congrArg Except.error he.1, he.2⟩
  | ok hm => exact ⟨congrArg Except.ok hm.1, hm.2⟩

theorem instantiateComponents (hgh : Twin g h) (classes : UidSet) :
    Alike (g.instantiateComponents classes) (h.instantiateComponents classes) := by
  have hcomponents : h.allClasses .component = g.allClasses .component :=
    hgh.reads (·.allClasses .component) fun _ => rfl
  unfold Store.instantiateComponents
  rw [hcomponents]
  exact hgh.instantiateDeep _

end Twin

end Store

end DesignGraph
