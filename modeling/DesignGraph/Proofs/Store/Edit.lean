import DesignGraph.Proofs.Store.Twin
import DesignGraph.Vocabulary.Level

/-! # Edits

All that ever happens to a store is that an edge is inserted, that a label is set, or that a fresh uid is
taken. `Edits P g h` says that a list of such edits makes `h` of `g`, and that it sets no label but those
of uids that satisfy `P`. `Fills P g h` says more: no fresh uid is taken but to insert an edge under it at
once. Every operation fills what it takes, a plain request for a fresh uid excepted; what holds of any such
steps therefore holds of every operation.

* `Edits.extends_`: edits only append, labels aside.
* `Edits.get?_eq`: an edge whose label is not set stays as it is, the label included.
* `Fills.gapless`: where every uid that is taken is filled, no gap arises among the numbers.
* `edits_copy`: opening a graph is a list of edits that starts without any edge. -/

namespace DesignGraph

/-- A change to a store that is not made of smaller ones. -/
inductive Edit where
  | insert (edge : Hyperedge)
  | setLabel (uid : Uid) (label : String)
  | nextFree (base : Uid)

namespace Edit

/-- Makes the change. -/
def apply (g : Store) : Edit → Store
  | insert edge => g.insert edge
  | setLabel uid label => g.setLabel uid label
  | nextFree base => (g.nextFree base).2

/-- The edit sets the label of this uid. -/
def Labels (u : Uid) : Edit → Prop
  | setLabel uid _ => uid = u
  | _ => False

end Edit

namespace Store

/-- A list of edits makes `h` of `g`, and all labels that it sets are those of uids with `P`. -/
def Edits (P : Uid → Prop) (g h : Store) : Prop :=
  ∃ edits : List Edit, edits.foldl Edit.apply g = h ∧ ∀ e ∈ edits, ∀ u, e.Labels u → P u

variable {P Q : Uid → Prop} {f g h : Store}

namespace Edits

theorem refl (P : Uid → Prop) (g : Store) : Edits P g g := ⟨[], rfl, by simp⟩

theorem trans (hfg : Edits P f g) (hgh : Edits P g h) : Edits P f h := by
  obtain ⟨es, rfl, hes⟩ := hfg
  obtain ⟨es', rfl, hes'⟩ := hgh
  refine ⟨es ++ es', List.foldl_append, fun e he => ?_⟩
  rcases List.mem_append.1 he with he | he
  · exact hes e he
  · exact hes' e he

theorem mono (hgh : Edits P g h) (hPQ : ∀ u, P u → Q u) : Edits Q g h := by
  obtain ⟨es, hes, hP⟩ := hgh
  exact ⟨es, hes, fun e he u hu => hPQ u (hP e he u hu)⟩

/-- What holds at the start and is kept by every edit holds in the end. -/
theorem keep {I : Store → Prop} (hgh : Edits P g h) (hg : I g)
    (hstep : ∀ (g : Store) (e : Edit), (∀ u, e.Labels u → P u) → I g → I (e.apply g)) : I h := by
  obtain ⟨es, rfl, hP⟩ := hgh
  induction es generalizing g with
  | nil => exact hg
  | cons e es ih =>
    exact ih (hstep g e (hP e List.mem_cons_self) hg) fun e' he' => hP e' (List.mem_cons_of_mem e he')

/-! ### What edits keep -/

theorem extends_apply (g : Store) (e : Edit) : Extends g (e.apply g) := by
  cases e with
  | insert edge => exact (grows_insert g edge).extends
  | setLabel u label => exact grows_setLabel _ g u label
  | nextFree base => exact Grows.refl _ g

/-- **Edits only append**: all that was there stays, up to labels. -/
theorem extends_ (hgh : Edits P g h) : Extends g h :=
  hgh.keep (Grows.refl _ g) fun g' e _ hg => hg.trans (extends_apply g' e)

theorem get?_apply {u : Uid} {e : Edit} (hu : u ∈ g) (he : ¬ e.Labels u) : (e.apply g).get? u = g.get? u := by
  cases e with
  | insert edge => exact keeps_insert g edge u hu
  | setLabel v label =>
    have hne : ∀ e : Hyperedge, e.uid = u → relabel v label e = e := fun e hu =>
      if_neg fun hv => he (hv.symm.trans hu)
    obtain ⟨e, hg⟩ := Option.ne_none_iff_exists'.1 fun hn => get?_eq_none_iff.1 hn hu
    have hmem : e ∈ (g.setLabel v label).edges :=
      List.mem_map.2 ⟨e, mem_of_get? hg, hne e (uid_of_get? hg)⟩
    rw [hg, ← uid_of_get? hg]
    exact get?_of_mem hmem
  | nextFree base => rfl

/-- **Labels stay** where they are not set. -/
theorem get?_eq (hgh : Edits P g h) {u : Uid} (hu : u ∈ g) (hP : ¬ P u) : h.get? u = g.get? u := by
  suffices Extends g h ∧ h.get? u = g.get? u from this.2
  refine hgh.keep (I := fun h => Extends g h ∧ h.get? u = g.get? u) ⟨Grows.refl _ g, rfl⟩
    fun g' e he hg => ⟨hg.1.trans (extends_apply g' e), ?_⟩
  rw [get?_apply (hg.1.mem hu) fun hl => hP (he u hl), hg.2]

end Edits

/-! ### Single edits -/

theorem edits_insert (P : Uid → Prop) (g : Store) (e : Hyperedge) : Edits P g (g.insert e) :=
  ⟨[.insert e], rfl, by simp [Edit.Labels]⟩

theorem edits_nextFree (P : Uid → Prop) (g : Store) (base : Uid) : Edits P g (g.nextFree base).2 :=
  ⟨[.nextFree base], rfl, by simp [Edit.Labels]⟩

theorem edits_setLabel {u : Uid} (hu : P u) (g : Store) (label : String) : Edits P g (g.setLabel u label) :=
  ⟨[.setLabel u label], rfl, by simp [Edit.Labels, hu]⟩

/-! ### Edits that fill the uids they take -/

/-- `h` comes about from `g` by edits that set no labels but those of uids with `P`, and that insert an edge
under each fresh uid as soon as they take it. -/
inductive Fills (P : Uid → Prop) (g : Store) : Store → Prop
  | refl : Fills P g g
  | insert {h : Store} (hgh : Fills P g h) (e : Hyperedge) : Fills P g (h.insert e)
  | setLabel {h : Store} (hgh : Fills P g h) {u : Uid} (hu : P u) (label : String) :
    Fills P g (h.setLabel u label)
  | insert_nextFree {h : Store} (hgh : Fills P g h) {base : Uid} {e : Hyperedge}
    (he : e.uid = (h.nextFree base).1) : Fills P g ((h.nextFree base).2.insert e)

namespace Fills

theorem trans (hfg : Fills P f g) (hgh : Fills P g h) : Fills P f h := by
  induction hgh with
  | refl => exact hfg
  | insert _ e ih => exact ih.insert e
  | setLabel _ hu label ih => exact ih.setLabel hu label
  | insert_nextFree _ he ih => exact ih.insert_nextFree he

theorem mono (hgh : Fills P g h) (hPQ : ∀ u, P u → Q u) : Fills Q g h := by
  induction hgh with
  | refl => exact .refl
  | insert _ e ih => exact ih.insert e
  | setLabel _ hu label ih => exact ih.setLabel (hPQ _ hu) label
  | insert_nextFree _ he ih => exact ih.insert_nextFree he

theorem edits (hgh : Fills P g h) : Edits P g h := by
  induction hgh with
  | refl => exact .refl P g
  | insert _ e ih => exact ih.trans (edits_insert P _ e)
  | setLabel _ hu label ih => exact ih.trans (edits_setLabel hu _ label)
  | insert_nextFree _ _ ih => exact (ih.trans (edits_nextFree P _ _)).trans (edits_insert P _ _)

/-- **No gap arises** among the numbers where every uid that is taken is filled. -/
theorem gapless (hgh : Fills P g h) (hg : Gapless g) : Gapless h := by
  induction hgh with
  | refl => exact hg
  | insert _ e ih => exact ih.insert e
  | setLabel _ _ label ih => exact ih.setLabel _ label
  | insert_nextFree _ he ih => exact ih.insert_nextFree he

end Fills

/-! ### Stored facts -/

theorem fills_insert (P : Uid → Prop) (g : Store) (e : Hyperedge) : Fills P g (g.insert e) := .insert .refl e

theorem fills_setLabel {u : Uid} (hu : P u) (g : Store) (label : String) : Fills P g (g.setLabel u label) :=
  .setLabel .refl hu label

theorem fills_create (P : Uid → Prop) (g : Store) (u : Uid) (label : String) :
    Fills P g (g.create u label).2 := by
  unfold create
  split
  · exact .refl
  · exact fills_insert P g _

/-- A concept fills the uid that was taken for it. -/
theorem fills_create_nextFree (P : Uid → Prop) (g : Store) (base : Uid) (label : String) :
    Fills P g ((g.nextFree base).2.create (g.nextFree base).1 label).2 := by
  rw [create, if_neg (nextFree_ne_empty g base)]
  exact .insert_nextFree .refl rfl

theorem fills_relate (P : Uid → Prop) (g : Store) (u : Uid) (sources targets : List Uid) (label : String) :
    Fills P g (g.relate u sources targets label).2 := by
  unfold relate
  split
  · exact .refl
  · exact fills_insert P g _

theorem fills_relateFrom (P : Uid → Prop) (g : Store) (r : Uid) (S T : UidSet) :
    Fills P g (g.relateFrom r S T).2 := by
  unfold relateFrom
  split
  · exact .refl
  split
  · exact .refl
  split
  · exact .refl
  split
  · exact .refl
  · exact .insert_nextFree .refl rfl

/-! ### Opening a graph -/

theorem fills_declare (P : Uid → Prop) (g : Store) : ∀ d : Declaration, Fills P g (d.declare g)
  | .concept u label => fills_create P g u label
  | .relation u sources targets label => fills_relate P g u sources targets label
  | .subrelation _ _ => fills_relateFrom P g _ _ _
  | .subclass _ _ => fills_relateFrom P g _ _ _

theorem fills_foldl {α : Type} {f : Store → α → Store} (hf : ∀ g a, Fills P g (f g a)) (l : List α) :
    ∀ g, Fills P g (l.foldl f g) := by
  induction l with
  | nil => exact fun _ => .refl
  | cons a l ih => exact fun g => (hf g a).trans (ih (f g a))

theorem fills_bootstrap (P : Uid → Prop) (level : Level) (g : Store) : Fills P g (level.bootstrap g) :=
  fills_foldl (fills_declare P) _ g

/-- A copy starts without any edge, and inserts those of the original. -/
theorem ofEdges_eq_renumbered (g : Store) : ofEdges g.edges = g.renumbered := by
  have hedges : (ofEdges g.edges).edges = g.edges := edges_ofEdges g.distinct g.tidy
  have hissued : ∀ (es : List Hyperedge) (f : Store), (es.foldl insert f).issued = f.issued := by
    intro es
    induction es with
    | nil => exact fun _ => rfl
    | cons e es ih => exact fun f => (ih (f.insert e)).trans (issued_insert f e)
  have hzero : (ofEdges g.edges).issued = fun _ => 0 := hissued g.edges empty
  cases hof : ofEdges g.edges
  rw [hof] at hedges hzero
  subst hedges hzero
  rfl

/-- **Opening a graph**, whatever edges it has, is a list of edits of the empty one. -/
theorem edits_copy (P : Uid → Prop) (level : Level) (g : Store) : Edits P empty (level.copy g) := by
  have hstart : Edits P empty g.renumbered := by
    rw [← ofEdges_eq_renumbered]
    exact (fills_foldl (fills_insert P) g.edges empty).edits
  exact hstart.trans (fills_bootstrap P level g.renumbered).edits

end Store

end DesignGraph
