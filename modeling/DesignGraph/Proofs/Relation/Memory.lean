import DesignGraph.Ontology
import DesignGraph.Proofs.Relation.Reach

/-! # What is remembered of the hierarchy

A graph answers queries about kinds of relations from memory, and forgets all answers when a fact about
the hierarchy is stored. A `Session` runs any calls on a graph and notes beside it, for each set of kinds,
the store at which the answer was taken (`asked`). The answer is what the facts of today say, from the
kinds that were known then.

* `Session.answer_eq`: an answer is the one that was right when it was taken.
* `Session.answer_iff`: it is still right exactly if every kind asked for that is known today lies below
  one that was known then, and a fact of one kind is found exactly if the kind was known then.
* `Session.stale_answer`: a kind that is asked for, declared and used stays without facts. -/

namespace DesignGraph

open Relation

namespace Store

variable {g h : Store}

/-! ### The number of facts about the hierarchy -/

theorem length_hierarchyFacts (g : Store) : g.hierarchyFacts.length =
    (g.edges.map Hyperedge.bare).countP fun e => e.asserts? == some Vocabulary.subrelationOf := by
  unfold hierarchyFacts facts
  induction g.edges with
  | nil => rfl
  | cons e l ih =>
    rw [List.filterMap_cons, List.map_cons, List.countP_cons, ← ih, Hyperedge.asserts?_bare]
    cases ha : e.asserts? with
    | none => simp
    | some r =>
      by_cases hr : r = Vocabulary.subrelationOf <;> simp [hr]

theorem Extends.hierarchyFacts_le (hgh : Extends g h) :
    g.hierarchyFacts.length ≤ h.hierarchyFacts.length := by
  obtain ⟨l, hl, -⟩ := hgh
  rw [length_hierarchyFacts, length_hierarchyFacts, hl, List.countP_append]
  omega

/-- If there are no more facts about the hierarchy, none has been added. -/
theorem Extends.adds_of_length_eq (hgh : Extends g h)
    (hlen : g.hierarchyFacts.length = h.hierarchyFacts.length) :
    Adds (fun r _ _ => r ≠ Vocabulary.subrelationOf) g h := by
  obtain ⟨l, hl, -⟩ := hgh
  rw [length_hierarchyFacts, length_hierarchyFacts, hl, List.countP_append] at hlen
  refine ⟨l, hl, fun e he r hr => ?_⟩
  rintro rfl
  have hpos : 0 < l.countP fun e => e.asserts? == some Vocabulary.subrelationOf :=
    List.countP_pos_iff.2 ⟨e, he, by simp [hr]⟩
  omega

theorem extends_relate (g : Store) (u : Uid) (sources targets : List Uid) (label : String) :
    Extends g (g.relate u sources targets label).2 := by
  unfold relate
  split
  · exact Grows.refl _ g
  · exact (grows_insert g _).extends

/-! ### Remembered answers -/

theorem stamp_remembered (g : Store) (m : Memory) : (g.remembered m).stamp = g.hierarchyFacts.length := by
  unfold remembered
  split
  · assumption
  · rfl

theorem remembered_of_stamp {m : Memory} (hm : m.stamp = g.hierarchyFacts.length) : g.remembered m = m :=
  if_pos hm

/-- The memory after a query: an answer that is not remembered is put in front. -/
theorem answerFrom_cases (g : Store) (m : Memory) (kinds : UidSet) :
    (∃ answer, (g.remembered m).answers.lookup kinds = some answer ∧
      g.answerFrom m kinds = (answer, g.remembered m)) ∨
    (g.remembered m).answers.lookup kinds = none ∧
      g.answerFrom m kinds = (g.subrelations kinds,
        ⟨g.hierarchyFacts.length, (kinds, g.subrelations kinds) :: (g.remembered m).answers⟩) := by
  cases hl : (g.remembered m).answers.lookup kinds with
  | none =>
    refine .inr ⟨rfl, ?_⟩
    rw [← stamp_remembered g m]
    simp only [answerFrom, hl]
  | some answer => exact .inl ⟨answer, rfl, by simp only [answerFrom, hl]⟩

theorem fst_answerFrom (g : Store) (m : Memory) (kinds : UidSet) :
    (g.answerFrom m kinds).1 = ((g.remembered m).answers.lookup kinds).getD (g.subrelations kinds) := by
  rcases g.answerFrom_cases m kinds with ⟨answer, ha, he⟩ | ⟨ha, he⟩ <;> rw [ha, he] <;> rfl

theorem stamp_answerFrom (g : Store) (m : Memory) (kinds : UidSet) :
    (g.answerFrom m kinds).2.stamp = g.hierarchyFacts.length := by
  rcases g.answerFrom_cases m kinds with ⟨answer, -, he⟩ | ⟨-, he⟩
  · rw [he]
    exact stamp_remembered g m
  · rw [he]

/-- What is remembered after a query: its answer, and what was remembered of other kinds. -/
theorem lookup_answerFrom (g : Store) (m : Memory) (kinds k : UidSet) :
    (g.answerFrom m kinds).2.answers.lookup k =
      if k = kinds then some (g.answerFrom m kinds).1 else (g.remembered m).answers.lookup k := by
  rcases g.answerFrom_cases m kinds with ⟨answer, ha, he⟩ | ⟨-, he⟩
  · rw [he]
    split
    · rwa [‹k = kinds›]
    · rfl
  · rw [he, List.lookup_cons]
    split_ifs with hk
    · rw [hk, beq_self_eq_true]
    · rw [beq_false_of_ne hk]

end Store

open Store

/-! ### Calls -/

/-- A call on a graph. The queries that do not name kinds change nothing and are left out. -/
inductive Call where
  | add (edge : Hyperedge)
  | create (uid : Uid) (label : String)
  | relate (uid : Uid) (sources targets : List Uid) (label : String)
  | subrelationOf (kinds parents : UidSet)
  | relateFrom (relation : Uid) (sources targets : UidSet)
  | subrelations (kinds : UidSet)
  | factsOf (kinds : UidSet) (sources targets : Option UidSet)
  | related (uids kinds : UidSet) (label : String) (direction : Direction)

namespace Call

/-- The graph that a call leaves. -/
def apply (o : Ontology) : Call → Ontology
  | add edge => { o with store := o.store.insert edge }
  | create uid label => { o with store := (o.store.create uid label).2 }
  | relate uid sources targets label => { o with store := (o.store.relate uid sources targets label).2 }
  | subrelationOf kinds parents => { o with store := (o.store.subrelationOf kinds parents).2 }
  | relateFrom relation sources targets =>
    { o with store := (o.store.relateFrom relation sources targets).2 }
  | subrelations kinds => (o.subrelations kinds).2
  | factsOf kinds sources targets => (o.factsOf kinds sources targets).2
  | related uids kinds label direction => (o.related uids kinds label direction).2

/-- The kinds that a call asks for. -/
def kinds? : Call → Option UidSet
  | subrelations kinds | factsOf kinds _ _ | related _ kinds _ _ => some kinds
  | _ => none

theorem apply_of_kinds? {o : Ontology} {c : Call} {kinds : UidSet} (hc : c.kinds? = some kinds) :
    c.apply o = (o.subrelations kinds).2 := by
  cases c <;> simp only [kinds?, Option.some.injEq, reduceCtorEq] at hc <;> subst hc <;> rfl

theorem memory_apply {o : Ontology} {c : Call} (hc : c.kinds? = none) :
    (c.apply o).memory = o.memory := by
  cases c <;> first | rfl | simp [kinds?] at hc

/-- No call takes anything away. -/
theorem extends_apply (o : Ontology) (c : Call) : Extends o.store (c.apply o).store := by
  cases c with
  | add edge => exact (grows_insert o.store edge).extends
  | create uid label => exact (grows_create o.store uid label).extends
  | relate uid sources targets label => exact extends_relate o.store uid sources targets label
  | subrelationOf kinds parents => exact (adds_relateFrom o.store _ kinds parents).extends
  | relateFrom relation sources targets =>
    exact (adds_relateFrom o.store relation sources targets).extends
  | _ => exact Grows.refl _ _

end Call

/-! ### Sessions -/

/-- A graph in use, with the store at which each set of kinds was first asked for since the last fact
about the hierarchy. -/
structure Session where
  graph : Ontology
  asked : UidSet → Option Store

namespace Session

/-- A graph opened at a level, of which nothing has been asked. -/
def start (level : Level) (g : Store) : Session := ⟨Ontology.ofStore level g, fun _ => none⟩

/-- The store from which kinds are or were answered: that at which they were asked for, or today's. -/
def answeredAt (s : Session) (kinds : UidSet) : Store := (s.asked kinds).getD s.graph.store

/-- The session after one more call. -/
def step (s : Session) (c : Call) : Session where
  graph := c.apply s.graph
  asked :=
    match c.kinds? with
    | some kinds => fun k => if k = kinds then some (s.answeredAt kinds) else s.asked k
    | none =>
      if (c.apply s.graph).store.hierarchyFacts.length = s.graph.store.hierarchyFacts.length then s.asked
      else fun _ => none

/-- What holds between calls: the answers remembered are those that were right when they were taken, and
no fact about the hierarchy has been stored since. -/
structure Consistent (s : Session) : Prop where
  stamp : s.graph.memory.stamp ≤ s.graph.store.hierarchyFacts.length
  answers : ∀ kinds, (s.graph.store.remembered s.graph.memory).answers.lookup kinds =
    (s.asked kinds).map fun g => g.subrelations kinds
  since : ∀ kinds g, s.asked kinds = some g → Extends g s.graph.store ∧
    g.hierarchyFacts.length = s.graph.store.hierarchyFacts.length

theorem consistent_start (level : Level) (g : Store) : (start level g).Consistent where
  stamp := Nat.zero_le _
  answers kinds := by
    unfold remembered
    split <;> rfl
  since kinds g h := by cases h

variable {s : Session}

theorem Consistent.answeredAt (hs : s.Consistent) (kinds : UidSet) :
    Extends (s.answeredAt kinds) s.graph.store ∧
      (s.answeredAt kinds).hierarchyFacts.length = s.graph.store.hierarchyFacts.length := by
  unfold Session.answeredAt
  cases ha : s.asked kinds with
  | none => exact ⟨Grows.refl _ _, rfl⟩
  | some g => exact hs.since kinds g ha

/-- **Answers**: what a query answers is what was right at the store it is answered from. -/
theorem Consistent.answer_eq (hs : s.Consistent) (kinds : UidSet) :
    (s.graph.subrelations kinds).1 = (s.answeredAt kinds).subrelations kinds := by
  change (s.graph.store.answerFrom s.graph.memory kinds).1 = _
  rw [fst_answerFrom, hs.answers, Session.answeredAt]
  cases s.asked kinds <;> rfl

/-- A call that stores something either leaves the hierarchy and with it all answers, or makes them
void. -/
theorem Consistent.step_of_none (hs : s.Consistent) {c : Call} (hc : c.kinds? = none) :
    (s.step c).Consistent := by
  let now := (c.apply s.graph).store
  have hext : Extends s.graph.store now := Call.extends_apply s.graph c
  have hle : s.graph.store.hierarchyFacts.length ≤ now.hierarchyFacts.length := hext.hierarchyFacts_le
  have hst := hs.stamp
  have hmem : (s.step c).graph.memory = s.graph.memory := Call.memory_apply hc
  have hstamp : (s.step c).graph.memory.stamp ≤ now.hierarchyFacts.length := by
    rw [hmem]
    omega
  -- the number of facts about the hierarchy is all that tells whether the answers still count
  by_cases hlen : now.hierarchyFacts.length = s.graph.store.hierarchyFacts.length
  · have hasked : (s.step c).asked = s.asked := by simp [step, hc, now, hlen]
    refine ⟨hstamp, fun kinds => ?_, fun kinds g hg => ?_⟩
    · rw [hasked, ← hs.answers kinds, hmem]
      change (now.remembered s.graph.memory).answers.lookup kinds = _
      rw [remembered, remembered, hlen]
    · rw [hasked] at hg
      obtain ⟨hge, hgl⟩ := hs.since kinds g hg
      exact ⟨hge.trans hext, hgl.trans hlen.symm⟩
  · have hasked : (s.step c).asked = fun _ => none := by simp [step, hc, now, hlen]
    have hvoid : s.graph.memory.stamp ≠ now.hierarchyFacts.length := by omega
    refine ⟨hstamp, fun kinds => ?_, fun kinds g hg => ?_⟩
    · rw [hasked, hmem]
      change (now.remembered s.graph.memory).answers.lookup kinds = _
      rw [remembered, if_neg hvoid]
      rfl
    · rw [hasked] at hg
      cases hg

/-- A query remembers its answer. -/
theorem Consistent.step_of_some (hs : s.Consistent) {c : Call} {kinds : UidSet}
    (hc : c.kinds? = some kinds) : (s.step c).Consistent := by
  have hasked : ∀ k, (s.step c).asked k =
      if k = kinds then some (s.answeredAt kinds) else s.asked k := fun k => by simp [step, hc]
  have hgraph : (s.step c).graph = (s.graph.subrelations kinds).2 := Call.apply_of_kinds? hc
  have hstore : (s.step c).graph.store = s.graph.store := by
    rw [hgraph]
    rfl
  have hmem : (s.step c).graph.memory = (s.graph.store.answerFrom s.graph.memory kinds).2 := by
    rw [hgraph]
    rfl
  have hanswer : (s.graph.store.answerFrom s.graph.memory kinds).1 =
      (s.answeredAt kinds).subrelations kinds := hs.answer_eq kinds
  have hnow : (s.step c).graph.memory.stamp = (s.step c).graph.store.hierarchyFacts.length := by
    rw [hmem, stamp_answerFrom, hstore]
  refine ⟨Nat.le_of_eq hnow, fun k => ?_, fun k g hg => ?_⟩
  · rw [remembered_of_stamp hnow, hmem, lookup_answerFrom, hanswer, hasked]
    split
    · rw [‹k = kinds›, Option.map_some]
    · exact hs.answers k
  · rw [hstore]
    rw [hasked k] at hg
    split at hg
    · obtain rfl := Option.some.inj hg
      exact hs.answeredAt kinds
    · exact hs.since k g hg

theorem Consistent.step (hs : s.Consistent) (c : Call) : (s.step c).Consistent := by
  cases hc : c.kinds? with
  | none => exact hs.step_of_none hc
  | some kinds => exact hs.step_of_some hc

/-- **Every session is consistent**, whatever is called in whatever order. -/
theorem Consistent.foldl (hs : s.Consistent) (calls : List Call) :
    (calls.foldl Session.step s).Consistent := by
  induction calls generalizing s with
  | nil => exact hs
  | cons c calls ih => exact ih (hs.step c)

/-- The kinds answered, told by the facts of today. -/
theorem Consistent.mem_answer (hs : s.Consistent) {kinds : UidSet} {v : Uid} :
    v ∈ (s.graph.subrelations kinds).1 ↔ ∃ k ∈ kinds, k ∈ s.answeredAt kinds ∧
      ReflTransGen (s.graph.store.Leads Vocabulary.subrelationOf .inverse) k v := by
  obtain ⟨hext, hlen⟩ := hs.answeredAt kinds
  have hleads : ∀ a b, s.graph.store.Leads Vocabulary.subrelationOf .inverse a b ↔
      (s.answeredAt kinds).Leads Vocabulary.subrelationOf .inverse a b := fun a b =>
    (hext.adds_of_length_eq hlen).leads_iff fun _ _ h => h rfl
  have heq : s.graph.store.Leads Vocabulary.subrelationOf .inverse =
      (s.answeredAt kinds).Leads Vocabulary.subrelationOf .inverse :=
    funext fun a => funext fun b => propext (hleads a b)
  rw [hs.answer_eq, mem_subrelations, heq]

/-- Of a single kind asked for, all is answered that lies below it if it was known, and nothing else. -/
theorem Consistent.mem_answer_single (hs : s.Consistent) {k v : Uid} :
    v ∈ (s.graph.subrelations (.single k)).1 ↔ k ∈ s.answeredAt (.single k) ∧
      ReflTransGen (s.graph.store.Leads Vocabulary.subrelationOf .inverse) k v := by
  rw [hs.mem_answer]
  simp

theorem mem_factsOf {o : Ontology} {k : Uid} {kinds : UidSet} {e : Hyperedge} (he : e ∈ o.store.edges)
    (hk : e.asserts? = some k) :
    e.uid ∈ (o.factsOf kinds none none).1 ↔ k ∈ (o.subrelations kinds).1 := by
  have hfact : e.kind = .fact ∧ e.relation = some k := by
    unfold Hyperedge.asserts? at hk
    split at hk
    · rename_i hkind
      exact ⟨hkind, (Option.filter_eq_some_iff.1 hk).1⟩
    · cases hk
  have hf : (o.factsOf kinds none none).1 = o.store.factsAmong (o.subrelations kinds).1 none none := rfl
  rw [hf, factsAmong]
  simp only [Option.isNone_none, Bool.and_self, if_true, UidSet.mem_ofList, List.mem_map, List.mem_filter,
    Bool.and_eq_true, beq_iff_eq]
  constructor
  · rintro ⟨e', ⟨he', -, hr⟩, hu⟩
    obtain rfl := List.inj_on_of_nodup_map o.store.distinct he' he hu
    simpa [hfact.2] using hr
  · intro hm
    exact ⟨e, ⟨he, hfact.1, by simpa [hfact.2] using hm⟩, rfl⟩

/-- **What is remembered**: after any calls on any graph, a query answers what lies below those of the
kinds asked for that were known when the answer was taken. This is what lies below those known today
exactly if each of these lies below one known then; and a fact of one kind is found, as a fact and from
its sources, exactly if that kind was known then. -/
theorem answer_iff (level : Level) (g : Store) (calls : List Call) (kinds : UidSet) :
    let s := calls.foldl step (start level g)
    let now := s.graph.store
    let Below := ReflTransGen (now.Leads Vocabulary.subrelationOf .inverse)
    (∀ v, v ∈ (s.graph.subrelations kinds).1 ↔ ∃ k ∈ kinds, k ∈ s.answeredAt kinds ∧ Below k v) ∧
    ((s.graph.subrelations kinds).1 = now.subrelations kinds ↔
      ∀ k ∈ kinds, k ∈ now → ∃ k' ∈ kinds, k' ∈ s.answeredAt kinds ∧ Below k' k) ∧
    ∀ k, ∀ e ∈ now.edges, e.asserts? = some k →
      (e.uid ∈ (s.graph.factsOf (.single k) none none).1 ↔ k ∈ s.answeredAt (.single k)) ∧
      ∀ u ∈ e.sources, ∀ v ∈ e.targets, v ∈ now →
        (v ∈ (s.graph.related (.single u) (.single k) "" .forward).1 ↔ k ∈ s.answeredAt (.single k)) := by
  intro s now Below
  have hs : s.Consistent := (consistent_start level g).foldl calls
  refine ⟨fun v => hs.mem_answer, ?_, fun k e he hk => ⟨?_, fun u hu v hv hvn => ?_⟩⟩
  · constructor
    · intro heq k hk hkn
      have hself : k ∈ now.subrelations kinds := mem_subrelations.2 ⟨k, hk, hkn, .refl⟩
      rw [← heq] at hself
      exact hs.mem_answer.1 hself
    · intro hall
      refine UidSet.ext fun v => ?_
      rw [hs.mem_answer, mem_subrelations]
      constructor
      · rintro ⟨k, hk, hka, hc⟩
        exact ⟨k, hk, (hs.answeredAt kinds).1.mem hka, hc⟩
      · rintro ⟨k, hk, hkn, hc⟩
        obtain ⟨k', hk', hka, hc'⟩ := hall k hk hkn
        exact ⟨k', hk', hka, hc'.trans hc⟩
  · rw [mem_factsOf he hk, hs.mem_answer_single]
    exact and_iff_left .refl
  · have hrel : (s.graph.related (.single u) (.single k) "" .forward).1 =
        now.neighbours (.single u) (s.graph.subrelations (.single k)).1 "" .forward := rfl
    rw [hrel, mem_neighbours]
    constructor
    · rintro ⟨-, r, hr, -⟩
      exact (hs.mem_answer_single.1 hr).1
    · intro hka
      exact ⟨hvn, k, hs.mem_answer_single.2 ⟨hka, .refl⟩, u, UidSet.mem_single.2 rfl, e.sources,
        e.targets, ⟨e, he, hk, rfl, rfl⟩, hu, hv⟩

/-- A kind that is asked for before it is declared stays without an answer, and its facts are not found. -/
theorem stale_answer :
    let s := [Call.subrelations (.single "K"), .relate "K" [] [] "K", .create "a" "", .create "b" "",
      .relateFrom "K" (.single "a") (.single "b")].foldl step (start .concepts .empty)
    let now := s.graph.store
    now.Asserts "K" ["a"] ["b"] ∧ now.subrelations (.single "K") = .single "K" ∧
      (s.graph.subrelations (.single "K")).1 = ∅ ∧ (s.graph.factsOf (.single "K") none none).1 = ∅ ∧
      (s.graph.related (.single "a") (.single "K") "" .forward).1 = ∅ := by
  decide +kernel

end Session

end DesignGraph
