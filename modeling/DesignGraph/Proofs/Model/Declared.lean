import DesignGraph.Proofs.Model.Action
import DesignGraph.Proofs.Model.Bootstrap
import DesignGraph.Proofs.Relation.FactSet

/-! # Vocabulary is declared once

A graph may be opened on edges of any kind, among them such that occupy the uids of the vocabulary. Opening
it answers all of its vocabulary all the same (`Level.answered_copy`), since the relation kinds of the facts
come first. So declaring again is idle at any later time (`Ontology.declared_once`).

What opening a graph adds is told edge by edge (`Declaration.StoredAs`): at most one for each piece of
vocabulary, in the order of the declarations. -/

namespace DesignGraph

open Store

namespace Store

variable {g h : Store} {r child parent : Uid}

/-- An assertion between two uids settles the fact, whatever its known relation kind is. -/
theorem settles_relateFrom (hr : r ∈ g) (hne : r ≠ "") (child parent : Uid) :
    (g.relateFrom r (.single child) (.single parent)).2.Settles r child parent := by
  by_cases hd : g.Declares r
  · exact .inl (joins_single_iff.1
      (joins_relateFrom hd hne (UidSet.not_isEmpty_single child) (UidSet.not_isEmpty_single parent)))
  · rw [relateFrom_of_not_declares hd]
    exact .inr ⟨hr, hd⟩

/-- A fact between two uids, stored under a number of its relation kind and with the label of the kind. -/
def FactBetween (g : Store) (r child parent : Uid) (e : Hyperedge) : Prop :=
  g.Declares r ∧ ∃ n, e = .fact (numbered r n) (g.labelOf r) [child] [parent] r

theorem FactBetween.mono (hgh : Keeps g h) {e : Hyperedge} (he : g.FactBetween r child parent e) :
    h.FactBetween r child parent e := by
  obtain ⟨hd, n, rfl⟩ := he
  obtain ⟨k, hk, hrel⟩ := declares_iff.1 hd
  refine ⟨declares_iff.2 ⟨k, ?_, hrel⟩, n, ?_⟩
  · rw [hgh r hd.mem, hk]
  · rw [hgh.labelOf hd.mem]

/-- An assertion between two uids leaves the store as it is or stores just this fact. -/
theorem relateFrom_single_cases (g : Store) (r child parent : Uid) :
    (g.relateFrom r (.single child) (.single parent)).2 = g ∨ ∃ e,
      (g.relateFrom r (.single child) (.single parent)).2.edges = g.edges ++ [e] ∧
        (g.relateFrom r (.single child) (.single parent)).2.FactBetween r child parent e := by
  by_cases hd : g.Declares r
  · have hS := UidSet.not_isEmpty_single child
    have hT := UidSet.not_isEmpty_single parent
    cases hf : g.findFact? r (.single child) (.single parent) with
    | some f => exact .inl (congrArg Prod.snd (relateFrom_found hd hS hT hf))
    | none =>
      obtain ⟨f, hnew, -, hedges⟩ := relateFrom_append hd hS hT hf
      have hmem : f ∈ (g.relateFrom r (.single child) (.single parent)).2 := by
        rw [mem_def, hedges]
        exact ⟨_, List.mem_append_right _ (List.mem_singleton_self _), rfl⟩
      obtain ⟨n, rfl⟩ := (mem_relateFrom hmem).resolve_left hnew
      exact .inr ⟨_, hedges, .mono (keeps_relateFrom g r _ _) ⟨hd, n, rfl⟩⟩
  · exact .inl (congrArg Prod.snd (relateFrom_of_not_declares hd _ _))

/-- An insertion leaves the store as it is or appends the edge. -/
theorem insert_cases (g : Store) (e : Hyperedge) :
    g.insert e = g ∨ (g.insert e).edges = g.edges ++ [e.tidied] := by
  by_cases he : e.uid ∈ g
  · exact .inl (edges_insert_of_mem he)
  · exact .inr (edges_insert_of_not_mem he)

end Store

namespace Declaration

variable {g h : Store}

/-- Once the two kinds of its facts are known, a piece of vocabulary is answered by declaring it. -/
theorem answered_declare (hsub : Vocabulary.subrelationOf ∈ g) (hisA : Vocabulary.isA ∈ g) :
    ∀ d : Declaration, d.Answered (declare g d)
  | concept u label => by
    by_cases hu : u = ""
    · exact .inl hu
    · exact .inr (mem_create hu)
  | relation u sources targets label => by
    by_cases hu : u = ""
    · exact .inl hu
    · exact .inr (held_declare_relation hu g sources targets label)
  | subrelation child parent => settles_relateFrom hsub (by decide) child parent
  | subclass child parent => settles_relateFrom hisA (by decide) child parent

theorem answered_foldl_declare : ∀ {ds : List Declaration} {g : Store},
    Vocabulary.subrelationOf ∈ g → Vocabulary.isA ∈ g → ∀ d ∈ ds, d.Answered (ds.foldl declare g)
  | [], _, _, _, _, hd => absurd hd List.not_mem_nil
  | d₀ :: ds, g, hsub, hisA, d, hd => by
    have hfirst := extends_declare g d₀
    rw [List.foldl_cons]
    rcases List.mem_cons.1 hd with rfl | hd
    · exact (answered_declare hsub hisA d).mono (extends_foldl_declare ds (declare g d))
    · exact answered_foldl_declare (hfirst.mem hsub) (hfirst.mem hisA) d hd

/-! ### What is stored -/

/-- The edge is what `g` has stored for the piece of vocabulary. -/
def StoredAs (g : Store) (e : Hyperedge) : Declaration → Prop
  | concept u label => e = .concept u label
  | relation u sources targets label =>
    e = ⟨u, label, .relation, (UidSet.ofList sources).toList, (UidSet.ofList targets).toList, none⟩
  | subrelation child parent => g.FactBetween Vocabulary.subrelationOf child parent e
  | subclass child parent => g.FactBetween Vocabulary.isA child parent e

theorem StoredAs.mono (hgh : Keeps g h) {e : Hyperedge} : ∀ {d : Declaration}, d.StoredAs g e → d.StoredAs h e
  | concept _ _, hd => hd
  | relation _ _ _ _, hd => hd
  | subrelation _ _, hd => FactBetween.mono hgh hd
  | subclass _ _, hd => FactBetween.mono hgh hd

/-- Declaring leaves the store as it is, or appends one edge. -/
theorem declare_cases (g : Store) (d : Declaration) : declare g d = g ∨
    ∃ e, (declare g d).edges = g.edges ++ [e] ∧ d.StoredAs (declare g d) e := by
  cases d with
  | concept u label =>
    rw [declare, create]
    split
    · exact .inl rfl
    · exact (insert_cases g _).imp_right fun h => ⟨_, h, rfl⟩
  | relation u sources targets label =>
    rw [declare, relate]
    split
    · exact .inl rfl
    · refine (insert_cases g _).imp_right fun h => ⟨_, h, ?_⟩
      exact Hyperedge.tidied_eq_self ⟨(UidSet.ofList sources).nodup_toList, (UidSet.ofList targets).nodup_toList⟩
  | subrelation child parent => exact relateFrom_single_cases g _ child parent
  | subclass child parent => exact relateFrom_single_cases g _ child parent

theorem keeps_declare (g : Store) (d : Declaration) : Keeps g (declare g d) := by
  rcases declare_cases g d with h | ⟨e, h, -⟩
  · rw [h]
    exact .refl g
  · exact keeps_of_edges h

theorem keeps_foldl_declare (ds : List Declaration) : ∀ g : Store, Keeps g (ds.foldl declare g) := by
  induction ds with
  | nil => exact .refl
  | cons d ds ih => exact fun g => (keeps_declare g d).trans (ih (declare g d))

/-- **What declaring adds**: for some of the pieces of vocabulary, in their order, one edge each. -/
theorem edges_foldl_declare (ds : List Declaration) : ∀ g : Store, ∃ added stored,
    (ds.foldl declare g).edges = g.edges ++ added ∧ stored.Sublist ds ∧
      List.Forall₂ (fun d e => d.StoredAs (ds.foldl declare g) e) stored added := by
  induction ds with
  | nil => exact fun g => ⟨[], [], by simp, .refl [], .nil⟩
  | cons d ds ih =>
    intro g
    rw [List.foldl_cons]
    obtain ⟨added, stored, hedges, hsub, hstored⟩ := ih (declare g d)
    rcases declare_cases g d with h | ⟨e, h, he⟩
    · rw [h] at hedges hstored ⊢
      exact ⟨added, stored, hedges, hsub.cons d, hstored⟩
    · refine ⟨e :: added, d :: stored, ?_, hsub.cons_cons d, .cons ?_ hstored⟩
      · rw [hedges, h, List.append_assoc, List.singleton_append]
      · exact he.mono (keeps_foldl_declare ds (declare g d))

end Declaration

/-! ### Opening a graph -/

/-- **Opening a graph answers all of its vocabulary**, on whatever edges. -/
theorem Level.answered_copy (level : Level) (g : Store) :
    ∀ d ∈ level.declarations, d.Answered (level.copy g) := by
  by_cases hl : level = .plain
  · subst hl
    exact fun d hd => absurd hd List.not_mem_nil
  obtain ⟨more, hmore⟩ := Level.exists_declarations_eq hl
  -- the generic relations come first, so the kinds of all later facts are known
  have hconcepts : Level.concepts ≠ .plain := by decide
  have hkinds := Level.held_copy hconcepts g
  have hsub : Vocabulary.subrelationOf ∈ Level.copy .concepts g :=
    hkinds (.relation Vocabulary.subrelationOf [] [] "SUBRELATION-OF") (by simp [Level.conceptDeclarations])
  have hisA : Vocabulary.isA ∈ Level.copy .concepts g :=
    hkinds (.relation Vocabulary.isA [] [] "IS-A") (by simp [Level.conceptDeclarations])
  intro d hd
  rw [hmore] at hd
  rcases List.mem_append.1 hd with hd | hd
  · exact (Level.held_copy hl g d hd).answered
  · rw [Level.copy, Level.bootstrap, hmore, List.foldl_append]
    exact Declaration.answered_foldl_declare hsub hisA d hd

/-- Declaring the vocabulary of a level changes nothing in a store that has grown from one that was opened at
this level. -/
theorem Level.bootstrap_of_extends {level : Level} {g h : Store} (hgh : Extends (level.copy g) h) :
    level.bootstrap h = h :=
  Declaration.foldl_declare_of_answered fun d hd => (level.answered_copy g d hd).mono hgh

namespace Ontology

theorem level_apply (o : Ontology) (a : Action) : (a.apply o).level = o.level := by
  cases a with
  | call c => cases c <;> rfl
  | change op hop => cases op <;> first | rfl | exact hop.elim
  | generate settings uid label =>
    unfold Action.apply
    simp only
    split <;> rfl
  | _ => rfl

theorem level_since (o : Ontology) (history : List Action) : (o.since history).level = o.level := by
  induction history generalizing o with
  | nil => rfl
  | cons a history ih => exact (ih (a.apply o)).trans (level_apply o a)

/-- The kinds of the vocabulary are known in every model. -/
theorem mem_of_declared {level : Level} {u : Uid} {S T : List Uid} {label : String}
    (hd : Declaration.relation u S T label ∈ level.declarations) (hu : u ≠ "") (g : Store)
    (history : List Action) : u ∈ ((ofStore level g).since history).store :=
  (edits_since (ofStore level g) history).extends_.mem
    ((level.answered_copy g _ hd).resolve_left hu)

/-- **Vocabulary is declared once.** A graph that is opened on any edges holds just these edges in their
order, and behind them at most one edge for each piece of vocabulary, in the order of the declarations.
Declaring the vocabulary again, at once or after any actions, leaves the graph as it is; and opening the
graph once more gives the same edges. -/
theorem declared_once (level : Level) (g : Store) :
    (∃ added stored, (ofStore level g).store.edges = g.edges ++ added ∧ stored.Sublist level.declarations ∧
      List.Forall₂ (fun d e => d.StoredAs (ofStore level g).store e) stored added) ∧
    (∀ history, ((ofStore level g).since history).bootstrap = (ofStore level g).since history) ∧
    (ofStore level (ofStore level g).store).store.edges = (ofStore level g).store.edges := by
  refine ⟨Declaration.edges_foldl_declare level.declarations g.renumbered, fun history => ?_, ?_⟩
  · have hgrown : Extends (level.copy g) ((ofStore level g).since history).store :=
      (edits_since (ofStore level g) history).extends_
    have hlevel : ((ofStore level g).since history).level = level := level_since _ history
    have hstore := Level.bootstrap_of_extends hgrown
    cases hlater : (ofStore level g).since history
    rw [hlater] at hlevel hstore
    subst hlevel
    exact congrArg (Ontology.mk _ · _ _) hstore
  · have hsame : Extends (level.copy g) (level.copy g).renumbered := ⟨[], by simp [renumbered], by simp⟩
    show (level.bootstrap (level.copy g).renumbered).edges = (level.copy g).edges
    rw [Level.bootstrap_of_extends hsame]
    rfl

end Ontology

end DesignGraph
