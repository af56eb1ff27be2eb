import DesignGraph.Proofs.Model.Action
import DesignGraph.Relation.Index

/-! # The index agrees with the facts

The index of a store is written edge by edge while the store is edited. It is always the index of the
edges that are stored (`Indexed.Kept.faithful`): what it lists at a uid are the facts that lead from there
or to there, and under a key it keeps the earliest stored fact with that key (`Index.facts_ofEdges`).
Queries and assertions that read the index therefore give what a scan of all edges gives.

* `neighbours_eq`, `factsAmong_eq`, `relateFrom_eq`: the index against the scan.
* `Ontology.indexed_queries`: both of them, after any history, told by the stored facts. -/

namespace DesignGraph

open Store

namespace Hyperedge

theorem asserts?_eq_some {e : Hyperedge} {r : Uid} :
    e.asserts? = some r ↔ e.kind = .fact ∧ e.relation = some r ∧ r ≠ "" := by
  unfold asserts?
  by_cases hk : e.kind = .fact
  · simp [hk, Option.filter_eq_some_iff]
  · simp [hk]

/-- The edge is a fact with this key. -/
def states (k : FactKey) (e : Hyperedge) : Bool :=
  e.asserts? == some k.relation && joins k.sources k.targets e

end Hyperedge

/-! ### The index of a list of edges -/

namespace Index

/-- The index of these edges, entered one after the other. -/
def ofEdges (edges : List Hyperedge) : Index := edges.foldl add empty

theorem mem_enlist {lists : Uid → List Uid} {fact f v : Uid} {uids : List Uid} :
    f ∈ enlist lists fact uids v ↔ f ∈ lists v ∨ f = fact ∧ v ∈ uids := by
  unfold enlist
  induction uids generalizing lists with
  | nil => simp
  | cons u uids ih =>
    rw [List.foldl_cons, ih]
    by_cases hv : v = u
    · simp only [hv, if_true, List.mem_append, List.mem_cons, true_or, and_true]
      tauto
    · simp only [hv, if_false, List.mem_cons, false_or]

/-- A list at a uid that is written for one side of the facts holds those that have the uid there. -/
theorem mem_lists_foldl (lists : Index → Uid → List Uid) (side : Hyperedge → List Uid)
    (hadd : ∀ (x : Index) (e : Hyperedge), lists (x.add e) =
      if e.asserts?.isSome then enlist (lists x) e.uid (side e) else lists x)
    {edges : List Hyperedge} {f u : Uid} : ∀ {x : Index}, f ∈ lists (edges.foldl add x) u ↔
      f ∈ lists x u ∨ ∃ e ∈ edges, e.asserts?.isSome ∧ u ∈ side e ∧ e.uid = f := by
  induction edges with
  | nil => simp
  | cons e edges ih =>
    intro x
    rw [List.foldl_cons, ih, hadd]
    by_cases ha : e.asserts?.isSome
    · simp only [ha, if_true, mem_enlist, List.exists_mem_cons_iff, true_and, or_assoc]
      rw [and_comm, eq_comm]
    · simp [ha]

theorem facts_foldl {edges : List Hyperedge} {k : FactKey} : ∀ {x : Index},
    (edges.foldl add x).facts k =
      (x.facts k).or ((edges.find? (Hyperedge.states k)).map Hyperedge.uid) := by
  induction edges with
  | nil => simp
  | cons e edges ih =>
    intro x
    rw [List.foldl_cons, ih, List.find?_cons]
    cases ha : e.asserts? with
    | none => simp [add, ha, Hyperedge.states]
    | some r =>
      by_cases hk : k = ⟨r, .ofList e.sources, .ofList e.targets⟩
      · have hs : e.states k = true := by simp [Hyperedge.states, joins, ha, hk]
        simp only [add, ha, hk, if_true] at hs ⊢
        cases x.facts ⟨r, .ofList e.sources, .ofList e.targets⟩ <;> simp [hs]
      · have hs : e.states k = false := by
          by_contra hs
          simp only [Hyperedge.states, joins, ha, Bool.not_eq_false, Bool.and_eq_true, beq_iff_eq,
            Option.some.injEq, decide_eq_true_eq] at hs
          obtain ⟨hr, hS, hT⟩ := hs
          exact hk (by rw [hr, hS, hT])
        simp only [add, ha, hk, if_false, hs]

theorem mem_outgoing_ofEdges {edges : List Hyperedge} {f u : Uid} : f ∈ (ofEdges edges).outgoing u ↔
    ∃ e ∈ edges, e.asserts?.isSome ∧ u ∈ e.sources ∧ e.uid = f := by
  refine (mem_lists_foldl outgoing Hyperedge.sources (fun x e => ?_)).trans (by simp [empty])
  cases ha : e.asserts? <;> simp [add, ha]

theorem mem_incoming_ofEdges {edges : List Hyperedge} {f u : Uid} : f ∈ (ofEdges edges).incoming u ↔
    ∃ e ∈ edges, e.asserts?.isSome ∧ u ∈ e.targets ∧ e.uid = f := by
  refine (mem_lists_foldl incoming Hyperedge.targets (fun x e => ?_)).trans (by simp [empty])
  cases ha : e.asserts? <;> simp [add, ha]

/-- A key belongs to the earliest fact that has it. -/
theorem facts_ofEdges (g : Store) (r : Uid) (S T : UidSet) :
    (ofEdges g.edges).facts ⟨r, S, T⟩ = g.findFact? r S T := by
  rw [ofEdges, facts_foldl, findFact?, Store.facts, List.find?_filterMap]
  simp only [empty, Option.none_or]
  have hsame : (fun e : Hyperedge => (e.asserts?.map fun r => (r, e)).any fun f =>
      f.1 == r && joins S T f.2) = Hyperedge.states ⟨r, S, T⟩ := by
    funext e
    cases ha : e.asserts? <;> simp [Hyperedge.states, ha]
  rw [hsame]
  cases hf : g.edges.find? (Hyperedge.states ⟨r, S, T⟩) with
  | none => rfl
  | some e =>
    have hs := List.find?_some hf
    simp only [Hyperedge.states, Bool.and_eq_true, beq_iff_eq] at hs
    simp [hs.1]

/-- A label does not occur in the index. -/
theorem add_relabel (x : Index) (u : Uid) (label : String) (e : Hyperedge) :
    x.add (relabel u label e) = x.add e := by
  unfold relabel
  split <;> rfl

theorem ofEdges_setLabel (g : Store) (u : Uid) (label : String) :
    ofEdges (g.setLabel u label).edges = ofEdges g.edges := by
  unfold ofEdges Store.setLabel
  rw [List.foldl_map]
  simp only [add_relabel]

end Index

/-! ### Indexes kept while a store is edited -/

namespace Indexed

variable {x : Indexed}

/-- Makes a change, and writes the index if an edge is stored. -/
def edit (x : Indexed) : Edit → Indexed
  | .insert edge => x.insert edge
  | .setLabel uid label => { x with store := x.store.setLabel uid label }
  | .nextFree base => { x with store := (x.store.nextFree base).2 }

/-- The index was written while the store was edited, from no edges on. -/
def Kept (x : Indexed) : Prop := ∃ edits : List Edit, edits.foldl edit empty = x

/-- The index is that of the stored edges. -/
def Faithful (x : Indexed) : Prop := x.index = .ofEdges x.store.edges

theorem store_insert (x : Indexed) (e : Hyperedge) : (x.insert e).store = x.store.insert e := by
  unfold insert
  split
  · rename_i h
    exact (edges_insert_of_mem h).symm
  · rfl

theorem store_edit (x : Indexed) (e : Edit) : (x.edit e).store = e.apply x.store := by
  cases e with
  | insert edge => exact store_insert x edge
  | setLabel uid label => rfl
  | nextFree base => rfl

theorem store_foldl_edit (edits : List Edit) : ∀ x : Indexed,
    (edits.foldl edit x).store = edits.foldl Edit.apply x.store := by
  induction edits with
  | nil => exact fun _ => rfl
  | cons e edits ih =>
    intro x
    rw [List.foldl_cons, List.foldl_cons, ih, store_edit]

theorem Faithful.insert (hx : x.Faithful) (e : Hyperedge) : (x.insert e).Faithful := by
  unfold Indexed.insert
  split
  · exact hx
  · rename_i h
    unfold Faithful at hx ⊢
    simp only
    rw [edges_insert_of_not_mem h, Index.ofEdges, List.foldl_append, ← Index.ofEdges, ← hx]
    rfl

/-- **The step**: an edit leaves the index that of the stored edges. -/
theorem Faithful.edit (hx : x.Faithful) (e : Edit) : (x.edit e).Faithful := by
  cases e with
  | insert edge => exact hx.insert edge
  | setLabel uid label => exact hx.trans (Index.ofEdges_setLabel x.store uid label).symm
  | nextFree base => exact hx

/-- **The run**: an index that was kept from no edges on is that of the stored edges. -/
theorem Kept.faithful (hx : x.Kept) : x.Faithful := by
  obtain ⟨edits, rfl⟩ := hx
  have hrun : ∀ (edits : List Edit) (x : Indexed), x.Faithful → (edits.foldl Indexed.edit x).Faithful := by
    intro edits
    induction edits with
    | nil => exact fun _ hx => hx
    | cons e edits ih => exact fun x hx => ih (x.edit e) (hx.edit e)
  exact hrun edits empty rfl

theorem exists_kept {P : Uid → Prop} {g : Store} (hg : Edits P .empty g) : ∃ x : Indexed, x.Kept ∧ x.store = g := by
  obtain ⟨edits, rfl, -⟩ := hg
  exact ⟨edits.foldl edit empty, ⟨edits, rfl⟩, store_foldl_edit edits empty⟩

end Indexed

/-! ### Queries -/

namespace Hyperedge

variable {e : Hyperedge} {r u : Uid} {kinds : UidSet} {sources targets : Option UidSet}

/-- What a query for facts looks for. A fact that names its relation kind by the empty uid is met only
where nothing is restricted. -/
def Among (kinds : UidSet) (sources targets : Option UidSet) (e : Hyperedge) : Prop :=
  e.kind = .fact ∧ ∃ r ∈ kinds, e.relation = some r ∧ (sources = none ∧ targets = none ∨
    r ≠ "" ∧ meetsSome e.sources sources ∧ meetsSome e.targets targets)

theorem ofKind_iff : Indexed.ofKind kinds e ↔ ∃ r ∈ kinds, e.relation = some r := by
  simp [Indexed.ofKind, Option.any_eq_true, and_comm]

theorem among_none_iff : e.Among kinds none none ↔ e.kind = .fact ∧ Indexed.ofKind kinds e := by
  simp [Among, ofKind_iff]

theorem among_iff (h : sources ≠ none ∨ targets ≠ none) : e.Among kinds sources targets ↔
    ∃ r ∈ kinds, e.asserts? = some r ∧ meetsSome e.sources sources ∧ meetsSome e.targets targets := by
  have hn : ¬ (sources = none ∧ targets = none) := by tauto
  simp only [Among, hn, false_or, asserts?_eq_some]
  constructor
  · rintro ⟨hk, r, hr, hrel, hne, hm⟩
    exact ⟨r, hr, ⟨hk, hrel, hne⟩, hm⟩
  · rintro ⟨r, hr, ⟨hk, hrel, hne⟩, hm⟩
    exact ⟨hk, r, hr, hrel, hne, hm⟩

end Hyperedge

namespace Store

variable {g : Store} {u v : Uid} {s kinds : UidSet} {label : String} {sources targets : Option UidSet}

theorem leads_both_iff {r : Uid} :
    g.Leads r .both u v ↔ g.Leads r .forward u v ∨ g.Leads r .inverse u v := by
  simp only [Leads, Direction.Leads]
  grind

theorem mem_filterByLabel : v ∈ g.filterByLabel s label ↔
    v ∈ s ∧ ∃ e, g.get? v = some e ∧ (label = "" ∨ e.label = label) := by
  simp [filterByLabel, Option.any_eq_true, labelMatches]

theorem meetsSome_iff {l : List Uid} {wanted : Option UidSet} :
    meetsSome l wanted ↔ ∀ s, wanted = some s → ∃ u ∈ l, u ∈ s := by
  cases wanted <;> simp [meetsSome]

theorem mem_factsAmong :
    u ∈ g.factsAmong kinds sources targets ↔ ∃ e ∈ g.edges, e.uid = u ∧ e.Among kinds sources targets := by
  unfold factsAmong
  by_cases h : sources ≠ none ∨ targets ≠ none
  · have hsome : ¬ (sources.isNone && targets.isNone) = true := by
      simpa [or_iff_not_imp_left] using h
    rw [if_neg hsome]
    simp only [UidSet.mem_ofList, List.mem_map, List.mem_filter, Hyperedge.among_iff h,
      Bool.and_eq_true, decide_eq_true_eq, Prod.exists, mem_facts]
    constructor
    · rintro ⟨r, e, ⟨⟨he, ha⟩, ⟨hr, hS⟩, hT⟩, rfl⟩
      exact ⟨e, he, rfl, r, hr, ha, hS, hT⟩
    · rintro ⟨e, he, rfl, r, hr, ha, hS, hT⟩
      exact ⟨r, e, ⟨⟨he, ha⟩, ⟨hr, hS⟩, hT⟩, rfl⟩
  · obtain ⟨rfl, rfl⟩ : sources = none ∧ targets = none := by tauto
    simp only [Option.isNone_none, Bool.and_self, if_true, UidSet.mem_ofList, List.mem_map,
      List.mem_filter, Hyperedge.among_none_iff, Bool.and_eq_true, beq_iff_eq]
    constructor
    · rintro ⟨e, ⟨he, hk⟩, rfl⟩
      exact ⟨e, he, rfl, hk⟩
    · rintro ⟨e, he, rfl, hk⟩
      exact ⟨e, ⟨he, hk⟩, rfl⟩

end Store

namespace Indexed.Faithful

variable {x : Indexed} {u v : Uid} {s kinds : UidSet} {label : String} {sources targets : Option UidSet}

/-- What is followed from the facts listed at `s`, where the lists hold the facts that have a uid on their
near side. -/
theorem mem_follow {lists : Uid → List Uid} {near : Hyperedge → List Uid} (far : Hyperedge → List Uid)
    (hlists : ∀ f u, f ∈ lists u ↔
      ∃ e ∈ x.store.edges, e.asserts?.isSome ∧ u ∈ near e ∧ e.uid = f) :
    v ∈ x.follow kinds far (s.toList.flatMap lists) ↔
      ∃ e ∈ x.store.edges, ∃ r ∈ kinds, e.asserts? = some r ∧ (∃ u ∈ s, u ∈ near e) ∧ v ∈ far e := by
  simp only [follow, List.mem_flatMap, List.mem_filterMap, hlists, UidSet.mem_toList]
  constructor
  · rintro ⟨e, ⟨f, ⟨u, hu, e', he', ha, hnear, rfl⟩, hget⟩, hv⟩
    obtain rfl : e' = e := Option.some.inj ((get?_of_mem he').symm.trans hget)
    split at hv
    · rename_i hk
      obtain ⟨r, hr, hrel⟩ := Hyperedge.ofKind_iff.1 hk
      obtain ⟨r', ha'⟩ := Option.isSome_iff_exists.1 ha
      obtain rfl : r' = r := by
        have := (Hyperedge.asserts?_eq_some.1 ha').2.1
        exact Option.some.inj (this.symm.trans hrel)
      exact ⟨e', he', r', hr, ha', ⟨u, hu, hnear⟩, hv⟩
    · cases hv
  · rintro ⟨e, he, r, hr, ha, ⟨u, hu, hnear⟩, hv⟩
    refine ⟨e, ⟨e.uid, ⟨u, hu, e, he, by simp [ha], hnear, rfl⟩, get?_of_mem he⟩, ?_⟩
    rwa [if_pos (Hyperedge.ofKind_iff.2 ⟨r, hr, (Hyperedge.asserts?_eq_some.1 ha).2.1⟩)]

variable (hx : x.Faithful)

include hx

theorem mem_outgoing {f u : Uid} : f ∈ x.index.outgoing u ↔
    ∃ e ∈ x.store.edges, e.asserts?.isSome ∧ u ∈ e.sources ∧ e.uid = f := by
  rw [show x.index = _ from hx, Index.mem_outgoing_ofEdges]

theorem mem_incoming {f u : Uid} : f ∈ x.index.incoming u ↔
    ∃ e ∈ x.store.edges, e.asserts?.isSome ∧ u ∈ e.targets ∧ e.uid = f := by
  rw [show x.index = _ from hx, Index.mem_incoming_ofEdges]

/-- Following the facts listed at their sources is a step over facts, -/
theorem mem_follow_outgoing : v ∈ x.follow kinds Hyperedge.targets (s.toList.flatMap x.index.outgoing) ↔
    ∃ r ∈ kinds, ∃ u ∈ s, x.store.Leads r .forward u v := by
  rw [mem_follow Hyperedge.targets fun f u => hx.mem_outgoing]
  constructor
  · rintro ⟨e, he, r, hr, ha, ⟨u, hu, hS⟩, hT⟩
    exact ⟨r, hr, u, hu, e.sources, e.targets, ⟨e, he, ha, rfl, rfl⟩, hS, hT⟩
  · rintro ⟨r, hr, u, hu, S, T, ⟨e, he, ha, rfl, rfl⟩, hS, hT⟩
    exact ⟨e, he, r, hr, ha, ⟨u, hu, hS⟩, hT⟩

/-- and following those listed at their targets a step the other way. -/
theorem mem_follow_incoming : v ∈ x.follow kinds Hyperedge.sources (s.toList.flatMap x.index.incoming) ↔
    ∃ r ∈ kinds, ∃ u ∈ s, x.store.Leads r .inverse u v := by
  rw [mem_follow Hyperedge.sources fun f u => hx.mem_incoming]
  constructor
  · rintro ⟨e, he, r, hr, ha, ⟨u, hu, hT⟩, hS⟩
    exact ⟨r, hr, u, hu, e.sources, e.targets, ⟨e, he, ha, rfl, rfl⟩, hT, hS⟩
  · rintro ⟨r, hr, u, hu, S, T, ⟨e, he, ha, rfl, rfl⟩, hT, hS⟩
    exact ⟨e, he, r, hr, ha, ⟨u, hu, hT⟩, hS⟩

/-- **Neighbours by the index** are those that the facts lead to. -/
theorem neighbours_eq (s kinds : UidSet) (label : String) (d : Direction) :
    x.neighbours s kinds label d = x.store.neighbours s kinds label d := by
  refine congrArg (x.store.filterByLabel · label) (UidSet.ext fun v => ?_)
  rw [UidSet.mem_ofList, mem_step]
  cases d with
  | forward => simpa using hx.mem_follow_outgoing
  | inverse => simpa using hx.mem_follow_incoming
  | both =>
    simp only [List.mem_append, hx.mem_follow_outgoing, hx.mem_follow_incoming, leads_both_iff,
      decide_eq_true_eq]
    grind

/-- The facts listed at given ends are those that have these ends. -/
theorem mem_candidates (h : sources ≠ none ∨ targets ≠ none) : u ∈ x.candidates sources targets ↔
    ∃ e ∈ x.store.edges, e.asserts?.isSome ∧ e.uid = u ∧
      meetsSome e.sources sources ∧ meetsSome e.targets targets := by
  have hsources : ∀ (s : UidSet) (f : Uid), f ∈ s.toList.flatMap x.index.outgoing ↔
      ∃ e ∈ x.store.edges, e.asserts?.isSome ∧ e.uid = f ∧ meetsSome e.sources (some s) := by
    intro s f
    simp only [List.mem_flatMap, UidSet.mem_toList, hx.mem_outgoing, meetsSome, List.any_eq_true,
      decide_eq_true_eq]
    grind
  have htargets : ∀ (s : UidSet) (f : Uid), f ∈ s.toList.flatMap x.index.incoming ↔
      ∃ e ∈ x.store.edges, e.asserts?.isSome ∧ e.uid = f ∧ meetsSome e.targets (some s) := by
    intro s f
    simp only [List.mem_flatMap, UidSet.mem_toList, hx.mem_incoming, meetsSome, List.any_eq_true,
      decide_eq_true_eq]
    grind
  cases sources with
  | none =>
    cases targets with
    | none => simp at h
    | some t => simp only [candidates, UidSet.mem_ofList, htargets, meetsSome, true_and]
  | some s =>
    cases targets with
    | none => simp only [candidates, UidSet.mem_ofList, hsources, meetsSome, and_true]
    | some t =>
      simp only [candidates, UidSet.mem_inter, UidSet.mem_ofList, hsources, htargets]
      constructor
      · rintro ⟨⟨e, he, ha, rfl, hs⟩, e', he', -, huid, ht⟩
        -- both lists speak of the same stored edge
        obtain rfl := List.inj_on_of_nodup_map x.store.distinct he' he huid
        exact ⟨e', he', ha, rfl, hs, ht⟩
      · rintro ⟨e, he, ha, rfl, hs, ht⟩
        exact ⟨⟨e, he, ha, rfl, hs⟩, e, he, ha, rfl, ht⟩

/-- **Facts by the index** are those that a scan of all edges finds, whichever ends are given. -/
theorem factsAmong_eq (kinds : UidSet) (sources targets : Option UidSet) :
    x.factsAmong kinds sources targets = x.store.factsAmong kinds sources targets := by
  refine UidSet.ext fun u => ?_
  rw [Indexed.factsAmong, UidSet.mem_filter, Store.mem_factsAmong]
  by_cases h : sources ≠ none ∨ targets ≠ none
  · simp only [hx.mem_candidates h, Hyperedge.among_iff h]
    constructor
    · rintro ⟨⟨e, he, ha, rfl, hm⟩, hk⟩
      rw [get?_of_mem he, Option.any_some] at hk
      obtain ⟨r, hr, hrel⟩ := Hyperedge.ofKind_iff.1 hk
      obtain ⟨r', ha'⟩ := Option.isSome_iff_exists.1 ha
      obtain rfl := Option.some.inj ((Hyperedge.asserts?_eq_some.1 ha').2.1.symm.trans hrel)
      exact ⟨e, he, rfl, r', hr, ha', hm⟩
    · rintro ⟨e, he, rfl, r, hr, ha, hm⟩
      rw [get?_of_mem he, Option.any_some]
      exact ⟨⟨e, he, by simp [ha], rfl, hm⟩,
        Hyperedge.ofKind_iff.2 ⟨r, hr, (Hyperedge.asserts?_eq_some.1 ha).2.1⟩⟩
  · obtain ⟨rfl, rfl⟩ : sources = none ∧ targets = none := by tauto
    simp only [candidates, UidSet.mem_ofList, List.mem_map, List.mem_filter, beq_iff_eq,
      Hyperedge.among_none_iff]
    constructor
    · rintro ⟨⟨e, ⟨he, hfact⟩, rfl⟩, hk⟩
      rw [get?_of_mem he, Option.any_some] at hk
      exact ⟨e, he, rfl, hfact, hk⟩
    · rintro ⟨e, he, rfl, hfact, hk⟩
      rw [get?_of_mem he, Option.any_some]
      exact ⟨⟨e, ⟨he, hfact⟩, rfl⟩, hk⟩

/-- **Assertions by the index** do what assertions do that look through all facts. -/
theorem relateFrom_eq (r : Uid) (S T : UidSet) :
    (x.relateFrom r S T).1 = (x.store.relateFrom r S T).1 ∧
      (x.relateFrom r S T).2.store = (x.store.relateFrom r S T).2 ∧ (x.relateFrom r S T).2.Faithful := by
  have hfact : x.index.facts ⟨r, S, T⟩ = x.store.findFact? r S T := by
    rw [show x.index = _ from hx, Index.facts_ofEdges]
  unfold Indexed.relateFrom Store.relateFrom
  by_cases hST : S.isEmpty || T.isEmpty
  · rw [if_pos hST, if_pos hST]
    exact ⟨rfl, rfl, hx⟩
  rw [if_neg hST, if_neg hST]
  cases hk : x.store.get? r with
  | none => exact ⟨rfl, rfl, hx⟩
  | some k =>
    by_cases hrel : k.kind ≠ .relation
    · simp only [if_pos hrel]
      exact ⟨trivial, trivial, hx⟩
    · simp only [if_neg hrel, hfact]
      cases hf : x.store.findFact? r S T with
      | some f => exact ⟨rfl, rfl, hx⟩
      | none =>
        have hnext : Faithful ⟨(x.store.nextFree r).2, x.index⟩ := hx
        obtain rfl := uid_of_get? hk
        exact ⟨rfl, store_insert _ _, hnext.insert _⟩

end Indexed.Faithful

namespace Ontology

/-- **Indexed queries**: whatever graph was opened and whatever has been done to it, `related` gives the
known uids with the label that lie on the far side of a stored fact of one of the kinds and of the kinds
below them, its near side meeting the given uids; `factsOf` gives the stored facts of these kinds with the
ends asked for, where facts of the empty kind are left aside. An index that was kept on the way gives the
same. -/
theorem indexed_queries (level : Level) (g : Store) (history : List Action) :
    let o := (ofStore level g).since history
    let edges := o.store.edges
    (∀ (s kinds : UidSet) (label : String) (d : Direction) (v : Uid),
      v ∈ (o.related s kinds label d).1 ↔
        (∃ e, o.store.get? v = some e ∧ (label = "" ∨ e.label = label)) ∧
        ∃ f ∈ edges, f.kind = .fact ∧ ∃ r ∈ (o.subrelations kinds).1, f.relation = some r ∧ r ≠ "" ∧
          ∃ u ∈ s, d.Leads f.sources f.targets u v) ∧
    (∀ (kinds : UidSet) (sources targets : Option UidSet),
      (∀ u ∈ (o.factsOf kinds sources targets).1, ∃ f ∈ edges, f.uid = u ∧ f.kind = .fact) ∧
      ∀ f ∈ edges, ∀ r, f.kind = .fact → f.relation = some r → r ≠ "" →
        (f.uid ∈ (o.factsOf kinds sources targets).1 ↔ r ∈ (o.subrelations kinds).1 ∧
          (∀ S, sources = some S → ∃ u ∈ f.sources, u ∈ S) ∧
          ∀ T, targets = some T → ∃ u ∈ f.targets, u ∈ T)) ∧
    (∃ x : Indexed, x.Kept ∧ x.store = o.store) ∧
    ∀ x : Indexed, x.Kept → x.store = o.store →
      (∀ s kinds label d,
        x.neighbours s (o.subrelations kinds).1 label d = (o.related s kinds label d).1) ∧
      ∀ kinds sources targets,
        x.factsAmong (o.subrelations kinds).1 sources targets = (o.factsOf kinds sources targets).1 := by
  intro o edges
  refine ⟨fun s kinds label d v => ?_, fun kinds sources targets => ⟨fun u hu => ?_, ?_⟩,
    Indexed.exists_kept (edits_opened level g history), fun x hx hstore => ?_⟩
  · have hrelated : (o.related s kinds label d).1 =
        o.store.neighbours s (o.subrelations kinds).1 label d := rfl
    rw [hrelated, neighbours, mem_filterByLabel, mem_step, and_comm]
    refine and_congr_right fun _ => ?_
    simp only [decide_eq_true_eq]
    constructor
    · rintro ⟨r, hr, u, hu, S, T, ⟨f, hf, ha, rfl, rfl⟩, hd⟩
      obtain ⟨hk, hrel, hne⟩ := Hyperedge.asserts?_eq_some.1 ha
      exact ⟨f, hf, hk, r, hr, hrel, hne, u, hu, hd⟩
    · rintro ⟨f, hf, hk, r, hr, hrel, hne, u, hu, hd⟩
      exact ⟨r, hr, u, hu, f.sources, f.targets,
        ⟨f, hf, Hyperedge.asserts?_eq_some.2 ⟨hk, hrel, hne⟩, rfl, rfl⟩, hd⟩
  · obtain ⟨f, hf, huid, hk, -⟩ := mem_factsAmong.1 hu
    exact ⟨f, hf, huid, hk⟩
  · intro f hf r hk hrel hne
    have hfacts : (o.factsOf kinds sources targets).1 =
        o.store.factsAmong (o.subrelations kinds).1 sources targets := rfl
    rw [hfacts, mem_factsAmong, ← meetsSome_iff, ← meetsSome_iff]
    constructor
    · rintro ⟨f', hf', huid, -, r', hr', hrel', hm⟩
      obtain rfl := List.inj_on_of_nodup_map o.store.distinct hf' hf huid
      obtain rfl := Option.some.inj (hrel'.symm.trans hrel)
      rcases hm with ⟨rfl, rfl⟩ | ⟨-, hm⟩
      · exact ⟨hr', rfl, rfl⟩
      · exact ⟨hr', hm⟩
    · rintro ⟨hr, hm⟩
      exact ⟨f, hf, rfl, hk, r, hr, hrel, .inr ⟨hne, hm⟩⟩
  · refine ⟨fun s kinds label d => ?_, fun kinds sources targets => ?_⟩
    · rw [hx.faithful.neighbours_eq, hstore]
      rfl
    · rw [hx.faithful.factsAmong_eq, hstore]
      rfl

end Ontology

end DesignGraph
