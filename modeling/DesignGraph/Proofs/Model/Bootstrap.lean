import DesignGraph.Proofs.Model.Regular
import DesignGraph.Proofs.Store.Twin
import DesignGraph.Vocabulary.Level

/-! # Declaring vocabulary again

Opening a graph at any level but the plain one declares the generic relations in it (`Level.held_copy`).
A piece of vocabulary may be there already (`Declaration.Held`), or be a fact that is refused because its
relation kind is taken by something else. Either way it is `Declaration.Answered`, and stays so while the
store grows: what is stored is never lost, and what is no relation kind never becomes one. Declaring it
again changes nothing (`Declaration.declare_of_answered`), so a model that holds the vocabulary is left as it
is when it is opened again (`Regular.copy_eq`). -/

namespace DesignGraph

open Store

namespace Store

variable {g h : Store} {r child parent : Uid}

/-- The fact is stored, or it is refused because its relation kind is taken by something else. -/
def Settles (g : Store) (r child parent : Uid) : Prop :=
  g.Asserts r [child] [parent] ∨ r ∈ g ∧ ¬ g.Declares r

theorem Settles.mono (hgh : Extends g h) (hf : g.Settles r child parent) : h.Settles r child parent := by
  rcases hf with hf | ⟨hr, hd⟩
  · exact .inl (hgh.asserts hf)
  · exact .inr ⟨hgh.mem hr, fun hd' => hd ((hgh.declares_iff hr).1 hd')⟩

theorem Settles.relateFrom_eq (hf : g.Settles r child parent) :
    (g.relateFrom r (.single child) (.single parent)).2 = g := by
  rcases hf with hf | ⟨-, hd⟩
  · exact store_relateFrom_of_joins (joins_single_iff.2 hf)
  · rw [relateFrom_of_not_declares hd]

end Store

namespace Declaration

/-- What the piece of vocabulary declares is there, if not always under the same label. -/
def Held (g : Store) : Declaration → Prop
  | concept u _ => u ∈ g
  | relation u _ _ _ => u ∈ g
  | subrelation child parent => g.Asserts Vocabulary.subrelationOf [child] [parent]
  | subclass child parent => g.Asserts Vocabulary.isA [child] [parent]

instance (g : Store) : DecidablePred (Held g)
  | concept u _ => inferInstanceAs (Decidable (u ∈ g))
  | relation u _ _ _ => inferInstanceAs (Decidable (u ∈ g))
  | subrelation child parent =>
    inferInstanceAs (Decidable (g.Asserts Vocabulary.subrelationOf [child] [parent]))
  | subclass child parent => inferInstanceAs (Decidable (g.Asserts Vocabulary.isA [child] [parent]))

theorem Held.mono {g h : Store} (hgh : Extends g h) : ∀ {d : Declaration}, d.Held g → d.Held h
  | concept _ _, hd => hgh.mem hd
  | relation _ _ _ _, hd => hgh.mem hd
  | subrelation _ _, hd => hgh.asserts hd
  | subclass _ _, hd => hgh.asserts hd

theorem extends_declare (g : Store) : ∀ d : Declaration, Extends g (declare g d)
  | concept u label => (adds_create (fun _ _ _ => True) g u label).extends
  | relation u sources targets label => by
    rw [declare, relate]
    split
    · exact Grows.refl _ g
    · exact (grows_insert g _).extends
  | subrelation _ _ => (adds_relateFrom g _ _ _).extends
  | subclass _ _ => (adds_relateFrom g _ _ _).extends

theorem extends_foldl_declare (ds : List Declaration) : ∀ g : Store, Extends g (ds.foldl declare g) := by
  induction ds with
  | nil => exact fun g => Grows.refl _ g
  | cons d ds ih => exact fun g => (extends_declare g d).trans (ih (declare g d))

theorem held_declare_relation {u : Uid} (hu : u ≠ "") (g : Store) (sources targets : List Uid)
    (label : String) : (relation u sources targets label).Held
      (declare g (relation u sources targets label)) := by
  rw [declare, relate, if_neg hu]
  exact mem_insert_self g _

/-- What holds when it has been declared still holds when the rest of the list has been. -/
theorem held_foldl_declare : ∀ {ds : List Declaration} {g : Store},
    (∀ d ∈ ds, ∀ g : Store, d.Held (declare g d)) → ∀ d ∈ ds, d.Held (ds.foldl declare g)
  | [], _, _, _, hd => absurd hd List.not_mem_nil
  | d₀ :: ds, g, hds, d, hd => by
    rw [List.foldl_cons]
    rcases List.mem_cons.1 hd with rfl | hd
    · exact (hds d (by simp) g).mono (extends_foldl_declare ds (declare g d))
    · exact held_foldl_declare (fun d hd => hds d (by simp [hd])) d hd

/-! ### Answered declarations -/

variable {g h : Store}

/-- What the piece of vocabulary declares is there, under whatever kind and label, or will be refused. -/
def Answered (g : Store) : Declaration → Prop
  | concept u _ => u = "" ∨ u ∈ g
  | relation u _ _ _ => u = "" ∨ u ∈ g
  | subrelation child parent => g.Settles Vocabulary.subrelationOf child parent
  | subclass child parent => g.Settles Vocabulary.isA child parent

theorem Held.answered : ∀ {d : Declaration}, d.Held g → d.Answered g
  | concept _ _, hd => .inr hd
  | relation _ _ _ _, hd => .inr hd
  | subrelation _ _, hd => .inl hd
  | subclass _ _, hd => .inl hd

theorem Answered.mono (hgh : Extends g h) : ∀ {d : Declaration}, d.Answered g → d.Answered h
  | concept _ _, hd => hd.imp_right hgh.mem
  | relation _ _ _ _, hd => hd.imp_right hgh.mem
  | subrelation _ _, hd => Settles.mono hgh hd
  | subclass _ _, hd => Settles.mono hgh hd

theorem declare_of_answered : ∀ {d : Declaration}, d.Answered g → declare g d = g
  | concept u label, hd => by
    rw [declare, create]
    split
    · rfl
    · rename_i hu
      exact edges_insert_of_mem (hd.resolve_left hu)
  | relation u sources targets label, hd => by
    rw [declare, relate]
    split
    · rfl
    · rename_i hu
      exact edges_insert_of_mem (hd.resolve_left hu)
  | subrelation _ _, hd => Settles.relateFrom_eq hd
  | subclass _ _, hd => Settles.relateFrom_eq hd

theorem foldl_declare_of_answered {ds : List Declaration} (hds : ∀ d ∈ ds, d.Answered g) :
    ds.foldl declare g = g := by
  induction ds with
  | nil => rfl
  | cons d ds ih =>
    rw [List.foldl_cons, declare_of_answered (hds d (by simp))]
    exact ih fun d' hd' => hds d' (by simp [hd'])

/-! ### Order -/

theorem orderly_declare {g : Store} (hg : Orderly g) : ∀ d : Declaration, Orderly (declare g d)
  | concept u label => ((Twin.refl hg).create u label).2.left
  | relation u sources targets label => by
    rw [declare, relate]
    split
    · exact hg
    · rename_i hu
      exact hg.insert hu nofun
  | subrelation _ _ => ((Twin.refl hg).relateFrom _ _ _).2.left
  | subclass _ _ => ((Twin.refl hg).relateFrom _ _ _).2.left

theorem orderly_foldl_declare {ds : List Declaration} : ∀ {g : Store}, Orderly g →
    Orderly (ds.foldl declare g) := by
  induction ds with
  | nil => exact id
  | cons d ds ih => exact fun hg => ih (orderly_declare hg d)

end Declaration

/-- The generic relations come first. -/
theorem Level.exists_declarations_eq {level : Level} (hl : level ≠ .plain) :
    ∃ more, level.declarations = Level.conceptDeclarations ++ more := by
  cases level with
  | plain => exact absurd rfl hl
  | concepts => exact ⟨[], rfl⟩
  | components => exact ⟨_, rfl⟩
  | algorithms => exact ⟨_, List.append_assoc _ _ _⟩

/-- **A graph that has been opened knows the generic relations**, unless it was opened without any
vocabulary. -/
theorem Level.held_copy {level : Level} (hl : level ≠ .plain) (g : Store) :
    ∀ d ∈ Level.conceptDeclarations, d.Held (level.copy g) := by
  obtain ⟨more, hmore⟩ := Level.exists_declarations_eq hl
  have heach : ∀ d ∈ Level.conceptDeclarations, ∀ g : Store, d.Held (Declaration.declare g d) := by
    simp only [Level.conceptDeclarations, List.forall_mem_cons]
    refine ⟨?_, ?_, ?_, ?_, ?_, ?_, by simp⟩
    all_goals exact fun g => Declaration.held_declare_relation (by decide) g _ _ _
  intro d hd
  rw [Level.copy, Level.bootstrap, hmore, List.foldl_append]
  exact (Declaration.held_foldl_declare heach d hd).mono (Declaration.extends_foldl_declare more _)

namespace Store

theorem Orderly.renumbered {g : Store} (hg : Orderly g) : Orderly g.renumbered where
  issued base k h₁ h₂ := by
    have : k ≤ 0 := h₂
    omega
  named := hg.named
  stated := hg.stated

theorem orderly_blank : Orderly blank := by
  have hblank : blank = Level.bootstrap .algorithms empty.renumbered := by
    rw [blank, Ontology.ofStore, Level.copy]
  rw [hblank, Level.bootstrap]
  exact Declaration.orderly_foldl_declare orderly_empty.renumbered

theorem Regular.of_edges {g h : Store} (hg : g.Regular) (he : h.edges = g.edges) : h.Regular :=
  hg.adds ⟨[], by rw [he, List.append_nil], by simp⟩

/-- **Opening a model again** leaves its edges as they are. -/
theorem Regular.copy_eq {g : Store} (hg : g.Regular) : Level.copy .algorithms g = g.renumbered := by
  have hheld : ∀ d ∈ Level.algorithms.declarations, d.Held vocabulary := by decide +kernel
  have hsame : g.renumbered.Regular := hg.of_edges rfl
  exact Declaration.foldl_declare_of_answered fun d hd => ((hheld d hd).mono hsame.contains).answered

end Store

end DesignGraph
