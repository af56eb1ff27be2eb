import DesignGraph.Proofs.Model.Monotone

/-! # The two queries for subclasses

The lattice below some classes is asked for at once (`Store.subclasses`) or one step at a time
(`Store.directSubclasses`). A step admits the kinds that are declared below `Vocabulary.isA`, which the
lattice does not, and it drops unknown uids, while the lattice goes on from them. Whether the two agree is
told by the facts (`Ontology.leastClosed_subclasses_iff`): no fact of a more special kind may lead out of the
lattice, and what is found past unknown uids (`Store.Detour`) has to be found by steps as well. A model that
the operations build has neither (`Store.Regular.leastClosed_subclasses`).

That a set is the least one which is closed under steps is told by chains of steps
(`Store.leastClosed_iff`). -/

namespace DesignGraph

open Relation

namespace Store

variable {g : Store} {d : Direction} {roots s : UidSet} {a b u v : Uid}

/-- The one-step query leads from `a` to `b`. -/
def DirectStep (g : Store) (d : Direction) (a b : Uid) : Prop :=
  b ∈ g ∧ ∃ k ∈ g.subrelations (.single Vocabulary.isA), g.Leads k d a b

theorem mem_directSubclasses : v ∈ g.directSubclasses s "" d ↔ ∃ u ∈ s, g.DirectStep d u v := by
  have he : g.directSubclasses s "" d = g.related Vocabulary.isA s "" d := rfl
  rw [he, mem_related]
  constructor
  · rintro ⟨hv, k, hk, u, hu, hl⟩
    exact ⟨u, hu, hv, k, hk, hl⟩
  · rintro ⟨u, hu, hv, k, hk, hl⟩
    exact ⟨hv, k, hk, u, hu, hl⟩

theorem mem_subclasses (hroots : ∀ u ∈ roots, u ∈ g) : v ∈ g.subclasses roots "" d ↔
    v ∈ g ∧ ∃ u ∈ roots, ReflTransGen (g.Leads Vocabulary.isA d) u v := by
  rw [subclasses, mem_filterByLabel_empty, mem_closure, and_comm]
  refine and_congr_right fun _ => exists_congr fun u => and_congr_right fun hu => ?_
  exact and_iff_right (hroots u hu)

/-! ### Least closed sets -/

/-- The set is the least one that holds the roots and with its members what is directly below them. -/
structure LeastClosed (g : Store) (d : Direction) (roots s : UidSet) : Prop where
  holds : ∀ u ∈ roots, u ∈ s
  closed : ∀ v ∈ g.directSubclasses s "" d, v ∈ s
  least : ∀ t : UidSet, (∀ u ∈ roots, u ∈ t) → (∀ v ∈ g.directSubclasses t "" d, v ∈ t) → ∀ v ∈ s, v ∈ t

/-- **The least closed set** holds what chains of steps reach from the roots. -/
theorem leastClosed_iff : g.LeastClosed d roots s ↔
    ∀ v, v ∈ s ↔ ∃ u ∈ roots, ReflTransGen (g.DirectStep d) u v := by
  classical
  constructor
  · intro hs v
    constructor
    · intro hv
      -- the members that chains reach are closed already
      let reached := s.filter fun v => decide (∃ u ∈ roots, ReflTransGen (g.DirectStep d) u v)
      have hmem : ∀ v, v ∈ reached ↔ v ∈ s ∧ ∃ u ∈ roots, ReflTransGen (g.DirectStep d) u v := by
        simp [reached]
      have hroots : ∀ u ∈ roots, u ∈ reached := fun u hu => (hmem u).2 ⟨hs.holds u hu, u, hu, .refl⟩
      have hclosed : ∀ w ∈ g.directSubclasses reached "" d, w ∈ reached := by
        intro w hw
        obtain ⟨a, ha, hstep⟩ := mem_directSubclasses.1 hw
        obtain ⟨has, u, hu, hc⟩ := (hmem a).1 ha
        exact (hmem w).2 ⟨hs.closed w (mem_directSubclasses.2 ⟨a, has, hstep⟩), u, hu, hc.tail hstep⟩
      exact ((hmem v).1 (hs.least reached hroots hclosed v hv)).2
    · rintro ⟨u, hu, hc⟩
      induction hc with
      | refl => exact hs.holds u hu
      | tail _ hstep ih => exact hs.closed _ (mem_directSubclasses.2 ⟨_, ih, hstep⟩)
  · intro hs
    refine ⟨fun u hu => (hs u).2 ⟨u, hu, .refl⟩, fun v hv => ?_, fun t ht hclosed v hv => ?_⟩
    · obtain ⟨a, ha, hstep⟩ := mem_directSubclasses.1 hv
      obtain ⟨u, hu, hc⟩ := (hs a).1 ha
      exact (hs v).2 ⟨u, hu, hc.tail hstep⟩
    · obtain ⟨u, hu, hc⟩ := (hs v).1 hv
      clear hv
      induction hc with
      | refl => exact ht u hu
      | @tail a b _ hstep ih => exact hclosed b (mem_directSubclasses.2 ⟨a, ih, hstep⟩)

/-! ### Detours -/

/-- A fact leads from `a` to `x`, which is unknown. -/
def Strays (g : Store) (d : Direction) (a x : Uid) : Prop := x ∉ g ∧ g.Leads Vocabulary.isA d a x

/-- Facts lead from `a` to `b`, past unknown uids only and at least one of them. -/
def Detour (g : Store) (d : Direction) (a b : Uid) : Prop :=
  ∃ x, TransGen (g.Strays d) a x ∧ g.Leads Vocabulary.isA d x b

theorem Detour.chain (h : g.Detour d a b) : ReflTransGen (g.Leads Vocabulary.isA d) a b := by
  obtain ⟨x, hax, hxb⟩ := h
  have hchain : TransGen (g.Leads Vocabulary.isA d) a x := hax.lift id fun _ _ hs => hs.2
  exact hchain.to_reflTransGen.tail hxb

/-- A fact or a detour leads from `a` to `b`, which is known. -/
def KnownStep (g : Store) (d : Direction) (a b : Uid) : Prop :=
  b ∈ g ∧ (g.Leads Vocabulary.isA d a b ∨ g.Detour d a b)

/-- A chain of facts goes from one known uid to the next, by a fact or by a detour. -/
theorem knownSteps_of_chain (hc : ReflTransGen (g.Leads Vocabulary.isA d) u v) (hv : v ∈ g) :
    ReflTransGen (g.KnownStep d) u v := by
  -- at each place of the chain the last known uid is followed by unknown ones
  obtain ⟨a, hua, hav⟩ : ∃ a, ReflTransGen (g.KnownStep d) u a ∧ ReflTransGen (g.Strays d) a v := by
    clear hv
    induction hc with
    | refl => exact ⟨u, .refl, .refl⟩
    | @tail w v _ hl ih =>
      obtain ⟨a, hua, haw⟩ := ih
      by_cases hv : v ∈ g
      · refine ⟨v, hua.tail ⟨hv, ?_⟩, .refl⟩
        rcases reflTransGen_iff_eq_or_transGen.1 haw with rfl | haw
        · exact .inl hl
        · exact .inr ⟨w, haw, hl⟩
      · exact ⟨a, hua, haw.tail ⟨hv, hl⟩⟩
  cases hav with
  | refl => exact hua
  | tail _ hstray => exact absurd hv hstray.1

/-! ### When the two agree -/

/-- **The two queries agree** on known classes exactly if no fact of a more special kind leads out of the
lattice, and all that detours find in it is found by steps. -/
theorem leastClosed_subclasses_iff_of_mem (hisA : Vocabulary.isA ∈ g) (hroots : ∀ u ∈ roots, u ∈ g) :
    let lattice := g.subclasses roots "" d
    g.LeastClosed d roots lattice ↔
      (∀ k ∈ g.subrelations (.single Vocabulary.isA), k ≠ Vocabulary.isA →
        ∀ a ∈ lattice, ∀ b ∈ g, g.Leads k d a b → b ∈ lattice) ∧
      ∀ a ∈ lattice, ∀ b ∈ g, g.Detour d a b → ∃ u ∈ roots, ReflTransGen (g.DirectStep d) u b := by
  intro lattice
  have hmem : ∀ v, v ∈ lattice ↔ v ∈ g ∧ ∃ u ∈ roots, ReflTransGen (g.Leads Vocabulary.isA d) u v :=
    fun v => mem_subclasses hroots
  have hself : Vocabulary.isA ∈ g.subrelations (.single Vocabulary.isA) := mem_subrelations_single.2 ⟨hisA, .refl⟩
  have hnext : ∀ a ∈ lattice, ∀ b ∈ g, ReflTransGen (g.Leads Vocabulary.isA d) a b → b ∈ lattice := by
    intro a ha b hb hab
    obtain ⟨-, u, hu, hua⟩ := (hmem a).1 ha
    exact (hmem b).2 ⟨hb, u, hu, hua.trans hab⟩
  rw [leastClosed_iff]
  constructor
  · intro h
    refine ⟨fun k hk _ a ha b hb hl => ?_, fun a ha b hb hdetour => (h b).1 (hnext a ha b hb hdetour.chain)⟩
    obtain ⟨u, hu, hua⟩ := (h a).1 ha
    exact (h b).2 ⟨u, hu, hua.tail ⟨hb, k, hk, hl⟩⟩
  · rintro ⟨hspecial, hdetours⟩ v
    constructor
    · intro hv
      obtain ⟨hvg, u, hu, hc⟩ := (hmem v).1 hv
      have hsteps := knownSteps_of_chain hc hvg
      clear hc hv hvg
      suffices h : v ∈ lattice ∧ ∃ u ∈ roots, ReflTransGen (g.DirectStep d) u v from h.2
      induction hsteps with
      | refl => exact ⟨(hmem u).2 ⟨hroots u hu, u, hu, .refl⟩, u, hu, .refl⟩
      | @tail a b _ hstep ih =>
        obtain ⟨ha, w, hw, hwa⟩ := ih
        obtain ⟨hb, hl | hdetour⟩ := hstep
        · exact ⟨hnext a ha b hb (.single hl), w, hw, hwa.tail ⟨hb, Vocabulary.isA, hself, hl⟩⟩
        · exact ⟨hnext a ha b hb hdetour.chain, hdetours a ha b hb hdetour⟩
    · rintro ⟨u, hu, hc⟩
      induction hc with
      | refl => exact (hmem u).2 ⟨hroots u hu, u, hu, .refl⟩
      | @tail a b _ hstep ih =>
        obtain ⟨hb, k, hk, hl⟩ := hstep
        by_cases hka : k = Vocabulary.isA
        · subst hka
          exact hnext a ih b hb (.single hl)
        · exact hspecial k hk hka a ih b hb hl

/-- The facts of a closed store make no detours. -/
theorem Closed.not_detour (hg : g.Closed) : ¬ g.Detour d a b := by
  rintro ⟨x, hax, -⟩
  cases hax with
  | single hs => exact hs.1 (hg.far hs.2)
  | tail _ hs => exact hs.1 (hg.far hs.2)

theorem Regular.specializing_eq (hg : Regular g) :
    g.subrelations (.single Vocabulary.isA) = .single Vocabulary.isA := by
  rw [hg.subrelations_eq (by decide)]
  decide +kernel

/-- In a model that the operations build the two queries agree. -/
theorem Regular.leastClosed_subclasses (hg : Regular g) (hroots : ∀ u ∈ roots, u ∈ g) :
    g.LeastClosed d roots (g.subclasses roots "" d) := by
  refine (leastClosed_subclasses_iff_of_mem (hg.declares (by decide)).mem hroots).2 ⟨fun k hk hne => ?_, ?_⟩
  · rw [hg.specializing_eq, UidSet.mem_single] at hk
    exact absurd hk hne
  · exact fun _ _ _ _ hdetour => absurd hdetour hg.closed.not_detour

end Store

namespace Ontology

open Store

/-- **Subclasses at once and step by step.** Take a graph that was opened with the generic relations, on any
store, and went through any history; take any set of known uids, and either direction or both. What is
remembered does not show in the steps. The lattice is the least set that holds the uids and is closed under
steps exactly if no fact of a kind below `Vocabulary.isA` leads out of it to a known uid, and each known uid
that a detour past unknown ones leads to is reached by steps. -/
theorem leastClosed_subclasses_iff {level : Level} (hlevel : level ≠ .plain) (g : Store) (history : List Action)
    (d : Direction) {roots : UidSet} (hroots : ∀ u ∈ roots, u ∈ ((ofStore level g).since history).store) :
    let o := (ofStore level g).since history
    let lattice := o.store.subclasses roots "" d
    (∀ s, (o.related s (.single Vocabulary.isA) "" d).1 = o.store.directSubclasses s "" d) ∧
    (o.store.LeastClosed d roots lattice ↔
      (∀ k ∈ o.store.subrelations (.single Vocabulary.isA), k ≠ Vocabulary.isA →
        ∀ a ∈ lattice, ∀ b ∈ o.store, o.store.Leads k d a b → b ∈ lattice) ∧
      ∀ a ∈ lattice, ∀ b ∈ o.store, o.store.Detour d a b →
        ∃ u ∈ roots, ReflTransGen (o.store.DirectStep d) u b) := by
  intro o lattice
  have hopened : Vocabulary.isA ∈ (ofStore level g).store :=
    (Level.held_copy hlevel g (.relation Vocabulary.isA [] [] "IS-A") (by decide))
  have hisA : Vocabulary.isA ∈ o.store := (edits_since (ofStore level g) history).extends_.mem hopened
  exact ⟨fun s => related_known level g history hopened s "" d, leastClosed_subclasses_iff_of_mem hisA hroots⟩

/-- A class that is placed below another one by way of an unknown uid. -/
def pastUnknown : List Action := [
  .call (.create "A" "A"),
  .call (.create "B" "B"),
  .call (.relateFrom Vocabulary.isA (.single "B") (.single "?")),
  .call (.relateFrom Vocabulary.isA (.single "?") (.single "A"))]

theorem leastClosed_subclasses_pastUnknown :
    let o := (ofStore .concepts .empty).since pastUnknown
    let lattice := o.store.subclasses (.single "A") "" .inverse
    (∀ u ∈ UidSet.single "A", u ∈ o.store) ∧ "B" ∈ lattice ∧ o.store.directSubclasses (.single "A") "" .inverse = ∅ ∧
      (∀ s, (o.related s (.single Vocabulary.isA) "" .inverse).1 = o.store.directSubclasses s "" .inverse) ∧
      (o.store.LeastClosed .inverse (.single "A") lattice ↔
        (∀ k ∈ o.store.subrelations (.single Vocabulary.isA), k ≠ Vocabulary.isA →
          ∀ a ∈ lattice, ∀ b ∈ o.store, o.store.Leads k .inverse a b → b ∈ lattice) ∧
        ∀ a ∈ lattice, ∀ b ∈ o.store, o.store.Detour .inverse a b →
          ∃ u ∈ UidSet.single "A", ReflTransGen (o.store.DirectStep .inverse) u b) := by
  have hfacts : "A" ∈ ((ofStore .concepts .empty).since pastUnknown).store ∧
      "B" ∈ ((ofStore .concepts .empty).since pastUnknown).store.subclasses (.single "A") "" .inverse ∧
      ((ofStore .concepts .empty).since pastUnknown).store.directSubclasses (.single "A") "" .inverse = ∅ := by
    decide +kernel
  obtain ⟨hA, hB, hnone⟩ := hfacts
  have hroots : ∀ u ∈ UidSet.single "A", u ∈ ((ofStore .concepts .empty).since pastUnknown).store := by
    simpa using hA
  exact ⟨hroots, hB, hnone, leastClosed_subclasses_iff (by decide) .empty pastUnknown .inverse hroots⟩

/-- A class that is placed below another one by a kind below `Vocabulary.isA`. -/
def specialized : List Action := [
  .call (.relate "K" [] [] "K"),
  .call (.subrelationOf (.single "K") (.single Vocabulary.isA)),
  .call (.create "A" "A"),
  .call (.create "B" "B"),
  .call (.relateFrom "K" (.single "B") (.single "A"))]

/-- The step to such a class leads out of the lattice. -/
theorem not_leastClosed_specialized :
    let o := (ofStore .concepts .empty).since specialized
    "A" ∈ o.store ∧ o.store.subclasses (.single "A") "" .inverse = .single "A" ∧
      o.store.directSubclasses (.single "A") "" .inverse = .single "B" ∧
      ¬ o.store.LeastClosed .inverse (.single "A") (o.store.subclasses (.single "A") "" .inverse) := by
  intro o
  have hfacts : "A" ∈ o.store ∧ o.store.subclasses (.single "A") "" .inverse = .single "A" ∧
      o.store.directSubclasses (.single "A") "" .inverse = .single "B" := by decide +kernel
  obtain ⟨hA, hlattice, hstep⟩ := hfacts
  refine ⟨hA, hlattice, hstep, fun h => ?_⟩
  have hB : "B" ∈ UidSet.single "A" := by
    rw [hlattice] at h
    exact h.closed "B" (hstep ▸ UidSet.mem_single.2 rfl)
  exact absurd hB (by decide)

end Ontology

end DesignGraph
