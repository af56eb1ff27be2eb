import DesignGraph.Proofs.Relation.Index

/-! # Graphs grow, and queries with them

A graph only ever appends edges, so a query that reads the facts alone finds what it found before and more.
A query that goes through the memory may be answered with what was taken at an earlier store. Such an
answer is no larger than a fresh one (`Memory.Dated.subset`), and it is given up only for a fresh one
(`GrownFrom.subrelations_apply`), so these queries lose nothing either.

* `GrownFrom.find_since`: no search loses an element, whatever is done to the graph.
* `Ontology.append_only`: what a graph with a history keeps when more is done to it.
* `Ontology.related_known`: of a kind that was known when the graph was opened the memory does not show. -/

namespace DesignGraph

open Store

/-! ### Answers and when they were taken -/

/-- Every answer that still counts for the store was taken at a store between `base` and this one, and no
fact about the hierarchy has been stored since. -/
structure Memory.Dated (base g : Store) (m : Memory) : Prop where
  stamp : m.stamp ≤ g.hierarchyFacts.length
  taken : ∀ kinds answer, (g.remembered m).answers.lookup kinds = some answer →
    ∃ f, Extends base f ∧ Extends f g ∧ f.hierarchyFacts.length = g.hierarchyFacts.length ∧
      answer = f.subrelations kinds

namespace Memory.Dated

variable {base g h : Store} {m : Memory} {kinds : UidSet} {v : Uid}

theorem start (g : Store) : Dated g g .empty where
  stamp := Nat.zero_le _
  taken kinds answer hl := by
    unfold remembered at hl
    split at hl <;> cases hl

/-- An answer, remembered or not, was right at some store since `base`. -/
theorem exists_answer (hm : Dated base g m) (hbase : Extends base g) (kinds : UidSet) :
    ∃ f, Extends base f ∧ Extends f g ∧ f.hierarchyFacts.length = g.hierarchyFacts.length ∧
      (g.answerFrom m kinds).1 = f.subrelations kinds := by
  rcases answerFrom_cases g m kinds with ⟨answer, hl, heq⟩ | ⟨-, heq⟩
  · rw [heq]
    exact hm.taken kinds answer hl
  · rw [heq]
    exact ⟨g, hbase, Grows.refl _ g, rfl, rfl⟩

/-- A remembered answer is no larger than a fresh one. -/
theorem subset (hm : Dated base g m) (hbase : Extends base g) (hv : v ∈ (g.answerFrom m kinds).1) :
    v ∈ g.subrelations kinds := by
  obtain ⟨f, -, hfg, -, heq⟩ := hm.exists_answer hbase kinds
  rw [heq] at hv
  exact closure_mono hfg (fun _ hk => hk) hv

/-- The answer for a kind that `base` knows is the fresh one. -/
theorem answer_of_mem (hm : Dated base g m) (hbase : Extends base g) {k : Uid} (hk : k ∈ base) :
    (g.answerFrom m (.single k)).1 = g.subrelations (.single k) := by
  refine UidSet.ext fun v => ⟨hm.subset hbase, fun hv => ?_⟩
  obtain ⟨f, hbf, hfg, hlen, heq⟩ := hm.exists_answer hbase (.single k)
  rw [heq, mem_subrelations_single]
  refine ⟨hbf.mem hk, (mem_subrelations_single.1 hv).2.lift id fun a b => ?_⟩
  exact ((hfg.adds_of_length_eq hlen).leads_iff fun _ _ hne => hne rfl).1

/-- While a store grows, its memory stays as it is, or is void once the hierarchy has changed. -/
theorem grow (hm : Dated base g m) (hgh : Extends g h) : Dated base h m where
  stamp := hm.stamp.trans hgh.hierarchyFacts_le
  taken kinds answer hl := by
    have hle := hgh.hierarchyFacts_le
    have hst := hm.stamp
    by_cases hlen : g.hierarchyFacts.length = h.hierarchyFacts.length
    · have hsame : h.remembered m = g.remembered m := by rw [remembered, remembered, hlen]
      rw [hsame] at hl
      obtain ⟨f, hbf, hfg, hf, rfl⟩ := hm.taken kinds answer hl
      exact ⟨f, hbf, hfg.trans hgh, hf.trans hlen, rfl⟩
    · rw [remembered, if_neg (by omega)] at hl
      cases hl

/-- A query adds its own answer. -/
theorem ask (hm : Dated base g m) (hbase : Extends base g) (kinds : UidSet) :
    Dated base g (g.answerFrom m kinds).2 where
  stamp := (stamp_answerFrom g m kinds).le
  taken kinds' answer hl := by
    rw [remembered_of_stamp (stamp_answerFrom g m kinds), lookup_answerFrom] at hl
    split at hl
    · obtain rfl := Option.some.inj hl
      rw [‹kinds' = kinds›]
      exact hm.exists_answer hbase kinds
    · exact hm.taken kinds' answer hl

/-- While a store grows, an answer is kept or is taken again, and then it is no smaller. -/
theorem answer_grow (hm : Dated base g m) (hbase : Extends base g) (hgh : Extends g h)
    (hv : v ∈ (g.answerFrom m kinds).1) : v ∈ (h.answerFrom m kinds).1 := by
  have hfresh : v ∈ h.subrelations kinds := closure_mono hgh (fun _ hk => hk) (hm.subset hbase hv)
  have hle := hgh.hierarchyFacts_le
  have hst := hm.stamp
  rw [fst_answerFrom] at hv ⊢
  by_cases hlen : m.stamp = h.hierarchyFacts.length
  · -- what the larger store remembers, the smaller one remembered as well
    have hsame : m.stamp = g.hierarchyFacts.length := by omega
    rw [remembered_of_stamp hsame] at hv
    rw [remembered_of_stamp hlen]
    cases hl : m.answers.lookup kinds with
    | none => exact hfresh
    | some answer => rwa [hl] at hv
  · rw [remembered, if_neg hlen]
    exact hfresh

end Memory.Dated

namespace Store

variable {g h : Store} {s t kinds kinds' : UidSet} {d : Direction} {root : ClassRoot} {v : Uid}

/-- Asking for kinds does not change what is answered for others. -/
theorem answerFrom_answerFrom (g : Store) (m : Memory) (kinds kinds' : UidSet) :
    (g.answerFrom (g.answerFrom m kinds').2 kinds).1 = (g.answerFrom m kinds).1 := by
  rw [fst_answerFrom, remembered_of_stamp (stamp_answerFrom g m kinds'), lookup_answerFrom]
  split
  · rw [‹kinds = kinds'›, Option.getD_some]
  · rw [fst_answerFrom]

/-! ### Queries in a larger store -/

variable (hgh : Extends g h)

include hgh

theorem neighbours_mono (hst : ∀ u ∈ s, u ∈ t) (hkinds : ∀ r ∈ kinds, r ∈ kinds')
    (hv : v ∈ g.neighbours s kinds "" d) : v ∈ h.neighbours t kinds' "" d := by
  obtain ⟨hv, r, hr, u, hu, hl⟩ := mem_neighbours.1 hv
  exact mem_neighbours.2 ⟨hgh.mem hv, r, hkinds r hr, u, hst u hu, hgh.leads hl⟩

theorem factsAmong_mono {sources targets : Option UidSet} (hkinds : ∀ r ∈ kinds, r ∈ kinds')
    (hv : v ∈ g.factsAmong kinds sources targets) : v ∈ h.factsAmong kinds' sources targets := by
  obtain ⟨e, he, rfl, hk, r, hr, hends⟩ := mem_factsAmong.1 hv
  obtain ⟨e', he', hb⟩ := hgh.edge he
  have hamong : e'.Among kinds' sources targets := by
    show e'.bare.Among kinds' sources targets
    rw [hb]
    exact ⟨hk, r, hkinds r hr, hends⟩
  exact mem_factsAmong.2 ⟨e', he', (Hyperedge.eq_of_bare_eq hb).1, hamong⟩

theorem subclasses_mono (hv : v ∈ g.subclasses s "" d) : v ∈ h.subclasses s "" d := by
  obtain ⟨hc, hv⟩ := mem_filterByLabel_empty.1 hv
  exact mem_filterByLabel_empty.2 ⟨closure_mono hgh (fun _ hu => hu) hc, hgh.mem hv⟩

theorem children_mono (hst : ∀ u ∈ s, u ∈ t) (hv : v ∈ g.children s "" d) : v ∈ h.children t "" d :=
  UidSet.mem_union.2 ((UidSet.mem_union.1 hv).imp (related_mono hgh hst) (related_mono hgh hst))

theorem heldMembers_mono (hv : v ∈ g.children s "" .forward ∩ g.allMembers root) :
    v ∈ h.children s "" .forward ∩ h.allMembers root :=
  UidSet.mem_inter.2 ((UidSet.mem_inter.1 hv).imp (children_mono hgh fun _ hu => hu) (allMembers_mono hgh))

theorem interfacesOf_mono (hv : v ∈ g.interfacesOf s "" d) : v ∈ h.interfacesOf s "" d := by
  cases d with
  | forward => exact heldMembers_mono hgh hv
  | both => exact heldMembers_mono hgh hv
  | inverse =>
    refine children_mono hgh (fun u hu => ?_) hv
    exact UidSet.mem_inter.2 ((UidSet.mem_inter.1 hu).imp_right (allMembers_mono hgh))

theorem componentsOf_mono (hv : v ∈ g.componentsOf s "" d) : v ∈ h.componentsOf s "" d := by
  cases d with
  | forward => exact heldMembers_mono hgh hv
  | both => exact heldMembers_mono hgh hv
  | inverse =>
    refine UidSet.mem_inter.2 ((UidSet.mem_inter.1 hv).imp (children_mono hgh fun _ hu => hu) fun hc => ?_)
    exact UidSet.mem_union.2 ((UidSet.mem_union.1 hc).imp (allClasses_mono hgh) (allMembers_mono hgh))

theorem ownedMembers_mono (hv : v ∈ g.interfacesOf s "" .forward ∩ g.allMembers root) :
    v ∈ h.interfacesOf s "" .forward ∩ h.allMembers root :=
  UidSet.mem_inter.2 ((UidSet.mem_inter.1 hv).imp (interfacesOf_mono hgh) (allMembers_mono hgh))

theorem dependenciesOf_mono (hv : v ∈ g.dependenciesOf s "") : v ∈ h.dependenciesOf s "" :=
  UidSet.mem_inter.2 ((UidSet.mem_inter.1 hv).imp (related_mono hgh fun _ hu => hu) (allMembers_mono hgh))

end Store

/-! ### Searches -/

/-- A search without a label, with its other arguments. -/
inductive Search where
  | subrelations (kinds : UidSet)
  | subclasses (s : UidSet) (d : Direction)
  | directSubclasses (s : UidSet) (d : Direction)
  | instances (s : UidSet) (d : Direction)
  | related (s kinds : UidSet) (d : Direction)
  | factsOf (kinds : UidSet) (sources targets : Option UidSet)
  | children (s : UidSet) (d : Direction)
  | endpoints (s : UidSet) (d : Direction)
  | interfacesOf (s : UidSet) (d : Direction)
  | componentsOf (s : UidSet) (d : Direction)
  | inputsOf (s : UidSet)
  | outputsOf (s : UidSet)
  | dependenciesOf (s : UidSet)

namespace Search

/-- What a search finds in a graph. -/
def find (o : Ontology) : Search → UidSet
  | subrelations kinds => (o.subrelations kinds).1
  | subclasses s d => o.store.subclasses s "" d
  | directSubclasses s d => o.store.directSubclasses s "" d
  | instances s d => o.store.instances s "" d
  | related s kinds d => (o.related s kinds "" d).1
  | factsOf kinds sources targets => (o.factsOf kinds sources targets).1
  | children s d => o.store.children s "" d
  | endpoints s d => o.store.endpoints s "" d
  | interfacesOf s d => o.store.interfacesOf s "" d
  | componentsOf s d => o.store.componentsOf s "" d
  | inputsOf s => o.store.inputsOf s ""
  | outputsOf s => o.store.outputsOf s ""
  | dependenciesOf s => o.store.dependenciesOf s ""

/-- A search loses nothing where the store grows and no kind is lost below those asked for. -/
theorem find_mono {o o' : Ontology} (hstore : Extends o.store o'.store)
    (hkinds : ∀ kinds, ∀ r ∈ (o.subrelations kinds).1, r ∈ (o'.subrelations kinds).1) (q : Search) {v : Uid}
    (hv : v ∈ q.find o) : v ∈ q.find o' := by
  cases q with
  | subrelations kinds => exact hkinds kinds v hv
  | subclasses s d => exact subclasses_mono hstore hv
  | directSubclasses s d => exact related_mono hstore (fun _ hu => hu) hv
  | instances s d => exact related_mono hstore (fun _ hu => hu) hv
  | related s kinds d => exact neighbours_mono hstore (fun _ hu => hu) (hkinds kinds) hv
  | factsOf kinds sources targets => exact factsAmong_mono hstore (hkinds kinds) hv
  | children s d => exact children_mono hstore (fun _ hu => hu) hv
  | endpoints s d => exact related_mono hstore (fun _ hu => hu) hv
  | interfacesOf s d => exact interfacesOf_mono hstore hv
  | componentsOf s d => exact componentsOf_mono hstore hv
  | inputsOf s => exact ownedMembers_mono hstore hv
  | outputsOf s => exact ownedMembers_mono hstore hv
  | dependenciesOf s => exact dependenciesOf_mono hstore hv

end Search

namespace Ontology

/-- A graph that grew from `base`, with a memory of answers taken since then. -/
structure GrownFrom (base : Store) (o : Ontology) : Prop where
  grown : Extends base o.store
  memory : Memory.Dated base o.store o.memory

theorem grownFrom_start (level : Level) (g : Store) :
    GrownFrom (level.copy g) (ofStore level g) := ⟨Grows.refl _ _, .start _⟩

namespace GrownFrom

variable {base : Store} {o : Ontology}

theorem apply (ho : GrownFrom base o) (a : Action) : GrownFrom base (a.apply o) := by
  have hgrown : Extends o.store (a.apply o).store := (a.edits o).extends_
  rcases a.memory_apply o with hmem | ⟨kinds, hask⟩
  · refine ⟨ho.grown.trans hgrown, ?_⟩
    rw [hmem]
    exact ho.memory.grow hgrown
  · rw [hask]
    exact ⟨ho.grown, ho.memory.ask ho.grown kinds⟩

theorem since (ho : GrownFrom base o) (history : List Action) : GrownFrom base (o.since history) := by
  induction history generalizing o with
  | nil => exact ho
  | cons a history ih => exact ih (ho.apply a)

/-- **The step for the hierarchy**: an action takes no kind away from an answer. -/
theorem subrelations_apply (ho : GrownFrom base o) (a : Action) (kinds : UidSet) {v : Uid}
    (hv : v ∈ (o.subrelations kinds).1) : v ∈ ((a.apply o).subrelations kinds).1 := by
  rcases a.memory_apply o with hmem | ⟨kinds', hask⟩
  · have hgrown : Extends o.store (a.apply o).store := (a.edits o).extends_
    show v ∈ ((a.apply o).store.answerFrom (a.apply o).memory kinds).1
    rw [hmem]
    exact ho.memory.answer_grow ho.grown hgrown hv
  · rw [hask]
    show v ∈ (o.store.answerFrom (o.store.answerFrom o.memory kinds').2 kinds).1
    rwa [answerFrom_answerFrom]

/-- **The run**: no search loses an element, whatever is done. -/
theorem find_since (ho : GrownFrom base o) (run : List Action) (q : Search) {v : Uid}
    (hv : v ∈ q.find o) : v ∈ q.find (o.since run) := by
  induction run generalizing o with
  | nil => exact hv
  | cons a run ih =>
    refine ih (ho.apply a) ?_
    exact q.find_mono (a.edits o).extends_ (fun kinds r hr => ho.subrelations_apply a kinds hr) hv

end GrownFrom

/-- **A graph only grows.** Take any graph that was opened and has a history, and do any list of actions to
it. Its uids stay distinct and no list of endpoints has a repetition; the edges there were are the first
ones there are, and nothing but labels differs in them; whatever is done comes down to edits, and a label
differs only if an edit sets it, which only the actions do that set this label. No search without a label
loses an element. -/
theorem append_only (level : Level) (g : Store) (history run : List Action) :
    let o := (ofStore level g).since history
    let o' := o.since run
    (o'.store.edges.map Hyperedge.uid).Nodup ∧
      (∀ e ∈ o'.store.edges, e.sources.Nodup ∧ e.targets.Nodup) ∧
      o.store.edges.map Hyperedge.bare <+: o'.store.edges.map Hyperedge.bare ∧
      (∃ edits : List Edit, edits.foldl Edit.apply o.store = o'.store ∧
        ∀ u ∈ o.store, o'.store.labelOf u ≠ o.store.labelOf u →
          (∃ label, Edit.setLabel u label ∈ edits) ∧ ∃ a ∈ run, a.Sets u) ∧
      ∀ q : Search, ∀ v ∈ q.find o, v ∈ q.find o' := by
  intro o o'
  have hgrown : GrownFrom (level.copy g) o := (grownFrom_start level g).since history
  have hedits := edits_since o run
  obtain ⟨added, hadded, -⟩ := hedits.extends_
  refine ⟨o'.store.distinct, o'.store.tidy, ⟨added, hadded.symm⟩, ?_, fun q v hv => hgrown.find_since run q hv⟩
  obtain ⟨edits, hrun, hsets⟩ := hedits
  refine ⟨edits, hrun, fun u hu hne => ?_⟩
  -- the labels that these very edits set are all that can differ
  obtain ⟨e, he, hl⟩ : ∃ e ∈ edits, e.Labels u := by
    by_contra hn
    have hsame : o'.store.get? u = o.store.get? u :=
      Edits.get?_eq (P := fun u => ∃ e ∈ edits, e.Labels u)
        ⟨edits, hrun, fun e he u hu => ⟨e, he, hu⟩⟩ hu hn
    exact hne (by rw [labelOf, labelOf, hsame])
  cases e with
  | insert edge => exact hl.elim
  | nextFree base => exact hl.elim
  | setLabel uid label =>
    obtain rfl : uid = u := hl
    exact ⟨⟨label, he⟩, hsets _ he uid rfl⟩

/-- Of a kind that was known when the graph was opened the memory does not show: neither now nor later does
it matter whether the kinds below it are remembered or looked up. -/
theorem related_known (level : Level) (g : Store) (history : List Action) {kind : Uid}
    (hkind : kind ∈ (ofStore level g).store) (s : UidSet) (label : String) (d : Direction) :
    let o := (ofStore level g).since history
    (o.related s (.single kind) label d).1 = o.store.related kind s label d := by
  intro o
  have ho : GrownFrom (level.copy g) o := (grownFrom_start level g).since history
  exact congrArg (o.store.neighbours s · label d) (ho.memory.answer_of_mem ho.grown hkind)

end Ontology

end DesignGraph
