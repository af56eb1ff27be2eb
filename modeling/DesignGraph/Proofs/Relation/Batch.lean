import DesignGraph.Proofs.Relation.FactSet

/-! # Facts asserted one after the other

What a store says is told without the uids of its facts: a `Statement` is the relation kind, the sets of
the ends and the label of one fact. A fact is asserted by its key, and a key of a declared kind either is
stated already or adds the statement that belongs to it (`Store.statements_assert`). So a batch of keys adds
just the statements of those among them that were not there, each one once
(`Store.statements_assertAll`), and the order of the batch does not show in what the store says
(`Store.statements_perm`). -/

namespace DesignGraph

/-- What a fact says: its relation kind, the sets of its sources and targets, and its label. -/
structure Statement where
  relation : Option Uid
  sources : UidSet
  targets : UidSet
  label : String
  deriving DecidableEq

/-- What an edge says. -/
def Hyperedge.statement (e : Hyperedge) : Statement :=
  ⟨e.relation, .ofList e.sources, .ofList e.targets, e.label⟩

namespace FactKey

/-- What a fact with this key says under a label. -/
def statement (k : FactKey) (label : String) : Statement := ⟨some k.relation, k.sources, k.targets, label⟩

/-- Neither side is empty. -/
def Full (k : FactKey) : Prop := ¬ k.sources.isEmpty ∧ ¬ k.targets.isEmpty

theorem eq_of_statement_eq {k k' : FactKey} {label label' : String}
    (h : k.statement label = k'.statement label') : k = k' := by
  cases k
  cases k'
  simp only [statement, Statement.mk.injEq, Option.some.injEq] at h
  obtain ⟨rfl, rfl, rfl, -⟩ := h
  rfl

end FactKey

namespace Store

variable {g : Store} {k : FactKey} {ks ks' : List FactKey}

/-- What the facts of a store say, in the order in which they are stored. -/
def statements (g : Store) : List Statement := (g.edges.filter (·.kind == .fact)).map Hyperedge.statement

/-- Asserts the fact with this key. -/
def assert (g : Store) (k : FactKey) : Option Uid × Store := g.relateFrom k.relation k.sources k.targets

/-- Asserts the facts with these keys, one after the other. -/
def assertAll (g : Store) (ks : List FactKey) : Store := ks.foldl (fun g k => (g.assert k).2) g

/-- Some fact has this key. -/
def States (g : Store) (k : FactKey) : Prop := ∃ e ∈ g.edges, e.states k

theorem states_iff_statement (hne : k.relation ≠ "") :
    g.States k ↔ ∃ label, k.statement label ∈ g.statements := by
  simp only [States, statements, List.mem_map, List.mem_filter, beq_iff_eq, Hyperedge.states, joins,
    Bool.and_eq_true, decide_eq_true_eq, Hyperedge.asserts?_eq_some]
  constructor
  · rintro ⟨e, he, ⟨hk, hr, -⟩, hS, hT⟩
    exact ⟨e.label, e, ⟨he, hk⟩, by rw [Hyperedge.statement, hr, hS, hT]; rfl⟩
  · rintro ⟨label, e, ⟨he, hk⟩, hs⟩
    simp only [Hyperedge.statement, FactKey.statement, Statement.mk.injEq] at hs
    exact ⟨e, he, ⟨hk, hs.1, hne⟩, hs.2.1, hs.2.2.1⟩

/-! ### One fact -/

theorem isSome_assert_iff (hd : g.Declares k.relation) : (g.assert k).1.isSome ↔ k.Full := by
  rw [Option.isSome_iff_exists]
  constructor
  · rintro ⟨f, hf⟩
    exact (declares_of_relateFrom hf).2
  · exact fun hk => relateFrom_isSome hd hk.1 hk.2

theorem assert_of_not_full (hk : ¬ k.Full) : g.assert k = (none, g) := by
  have hempty : k.sources.isEmpty || k.targets.isEmpty := by
    simpa [FactKey.Full, or_iff_not_imp_left] using hk
  rw [assert, relateFrom, if_pos hempty]

theorem assert_of_states (hk : g.States k) : (g.assert k).2 = g := by
  by_cases hd : g.Declares k.relation
  · by_cases hf : k.Full
    · obtain ⟨e, he, hs⟩ := hk
      obtain ⟨f, hfind⟩ : ∃ f, g.findFact? k.relation k.sources k.targets = some f :=
        Option.ne_none_iff_exists'.1 fun hn => findFact?_eq_none_iff.1 hn e he hs
      rw [assert, relateFrom_found hd hf.1 hf.2 hfind]
    · rw [assert_of_not_full hf]
  · rw [assert, relateFrom_of_not_declares hd]

/-- A key that says nothing, or nothing new, changes nothing. -/
theorem assert_of_not_new (hk : ¬ (k.Full ∧ ¬ g.States k)) : (g.assert k).2 = g := by
  by_cases hf : k.Full
  · exact assert_of_states (by_contra fun hs => hk ⟨hf, hs⟩)
  · rw [assert_of_not_full hf]

/-- **The step**: a key that is not stated adds what it says, under the label of its kind. -/
theorem statements_assert (hd : g.Declares k.relation) (hf : k.Full) (hk : ¬ g.States k) :
    (g.assert k).2.statements = g.statements ++ [k.statement (g.labelOf k.relation)] := by
  have hn : g.findFact? k.relation k.sources k.targets = none :=
    findFact?_eq_none_iff.2 fun e he hs => hk ⟨e, he, hs⟩
  obtain ⟨f, -, -, hedges⟩ := relateFrom_append hd hf.1 hf.2 hn
  simp only [statements, assert, hedges, List.filter_append, List.map_append, List.append_cancel_left_eq]
  simp [Hyperedge.fact, Hyperedge.statement, FactKey.statement]

theorem keeps_assertAll (g : Store) (ks : List FactKey) : Keeps g (g.assertAll ks) := by
  induction ks generalizing g with
  | nil => exact .refl g
  | cons k ks ih => exact (keeps_relateFrom g k.relation k.sources k.targets).trans (ih _)

theorem adds_assertAll (g : Store) (ks : List FactKey) :
    Adds (fun r _ _ => ∃ k ∈ ks, k.relation = r) g (g.assertAll ks) := by
  induction ks generalizing g with
  | nil => exact .refl _ g
  | cons k ks ih =>
    refine Adds.trans ((adds_relateFrom g k.relation k.sources k.targets).mono ?_) ((ih _).mono ?_)
    · rintro r S T ⟨⟨rfl, -, -⟩, -⟩
      exact ⟨k, by simp, rfl⟩
    · rintro r - - ⟨k', hk', rfl⟩
      exact ⟨k', by simp [hk'], rfl⟩

theorem assertAll_append (g : Store) (ks ks' : List FactKey) :
    g.assertAll (ks ++ ks') = (g.assertAll ks).assertAll ks' := List.foldl_append

/-! ### Batches -/

/-- The key is asserted in the batch, and was not stated before. -/
def NewIn (g : Store) (ks : List FactKey) (k : FactKey) : Prop := k ∈ ks ∧ k.Full ∧ ¬ g.States k

/-- What is stated after a run was stated before it or is among the keys that the run has added. -/
theorem states_iff_of_statements {h : Store} {new : List FactKey} (hne : k.relation ≠ "")
    (hnew : h.statements = g.statements ++ new.map fun k => k.statement (g.labelOf k.relation)) :
    h.States k ↔ g.States k ∨ k ∈ new := by
  rw [states_iff_statement hne, states_iff_statement hne, hnew]
  simp only [List.mem_append, List.mem_map, exists_or]
  refine or_congr_right ⟨?_, fun hk => ⟨_, k, hk, rfl⟩⟩
  rintro ⟨label, k', hk', hs⟩
  rwa [← FactKey.eq_of_statement_eq hs]

/-- **The run**: a batch of keys adds what those say that are new in it, each one once. -/
theorem statements_assertAll (hd : ∀ k ∈ ks, g.Declares k.relation) (hne : ∀ k ∈ ks, k.relation ≠ "") :
    ∃ new : List FactKey, new.Nodup ∧ (∀ k, k ∈ new ↔ g.NewIn ks k) ∧
      (g.assertAll ks).statements = g.statements ++ new.map fun k => k.statement (g.labelOf k.relation) := by
  induction ks using List.reverseRecOn with
  | nil => exact ⟨[], List.nodup_nil, by simp [NewIn], by simp [assertAll]⟩
  | append_singleton ks k ih =>
    obtain ⟨new, hnodup, hmem, hstated⟩ :=
      ih (fun k' hk' => hd k' (by simp [hk'])) fun k' hk' => hne k' (by simp [hk'])
    have hdk : g.Declares k.relation := hd k (by simp)
    have hstates : (g.assertAll ks).States k ↔ g.States k ∨ k ∈ new :=
      states_iff_of_statements (hne k (by simp)) hstated
    have hlater : g.assertAll (ks ++ [k]) = ((g.assertAll ks).assert k).2 := assertAll_append g ks [k]
    rw [hlater]
    by_cases hadd : k.Full ∧ ¬ (g.assertAll ks).States k
    · obtain ⟨hf, hns⟩ := hadd
      obtain ⟨hng, hnew⟩ := not_or.1 (hstates.not.1 hns)
      refine ⟨new ++ [k], List.nodup_append_comm.1 (List.nodup_cons.2 ⟨hnew, hnodup⟩), fun k' => ?_, ?_⟩
      · simp only [List.mem_append, List.mem_singleton, hmem, NewIn]
        by_cases hkk : k' = k
        · subst hkk
          simp [hf, hng]
        · simp [hkk]
      · have hdk' : (g.assertAll ks).Declares k.relation := (adds_assertAll g ks).extends.declares hdk
        rw [statements_assert hdk' hf hns, hstated, (keeps_assertAll g ks).labelOf hdk.mem, List.map_append,
          List.append_assoc]
        rfl
    · rw [assert_of_not_new hadd]
      refine ⟨new, hnodup, fun k' => ?_, hstated⟩
      rw [hmem]
      simp only [NewIn, List.mem_append, List.mem_singleton]
      refine and_congr_left fun ⟨hf', hn'⟩ => ⟨.inl, ?_⟩
      rintro (hk' | rfl)
      · exact hk'
      · have hs : (g.assertAll ks).States k' := by_contra fun hns => hadd ⟨hf', hns⟩
        exact ((hmem k').1 ((hstates.1 hs).resolve_left hn')).1

/-- **The order of a batch does not show** in what the store says afterwards. -/
theorem statements_perm (hd : ∀ k ∈ ks, g.Declares k.relation) (hne : ∀ k ∈ ks, k.relation ≠ "")
    (hks : ∀ k, k ∈ ks ↔ k ∈ ks') : (g.assertAll ks).statements.Perm (g.assertAll ks').statements := by
  obtain ⟨new, hnodup, hmem, hstated⟩ := statements_assertAll hd hne
  have hd' : ∀ k ∈ ks', g.Declares k.relation := fun k hk => hd k ((hks k).2 hk)
  have hne' : ∀ k ∈ ks', k.relation ≠ "" := fun k hk => hne k ((hks k).2 hk)
  obtain ⟨new', hnodup', hmem', hstated'⟩ := statements_assertAll hd' hne'
  have hnew : new.Perm new' := (List.perm_ext_iff_of_nodup hnodup hnodup').2 fun k => by
    rw [hmem, hmem', NewIn, NewIn, hks]
  rw [hstated, hstated']
  exact (hnew.map _).append_left _

end Store

end DesignGraph
