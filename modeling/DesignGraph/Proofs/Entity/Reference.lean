import DesignGraph.Proofs.Entity.Account

/-! # Which entities a text refers to

The text of an algorithm instantiates every algorithm class that one of its parts realizes
(`Store.mem_instantiations`). A recursive run plans what the parts of a planned algorithm realize, in front
of it, but neither implementation classes nor the root of the algorithms. So the other classes are declared
by an entity of the report, under the label that the text has for them, and the report is closed just if
these exceptions are declared too (`Store.generate_closed_iff`). -/

namespace DesignGraph

open Store

/-! ### An order of two levels -/

namespace Digraph

variable {G : Digraph} {start : Uid}

theorem visitAll_leaves {path : List Uid} : ∀ (vs done : List Uid) (hvs : ∀ v ∈ vs, v ∈ G.vertices),
    vs.Nodup → (∀ v ∈ vs, v ∉ done ∧ v ∉ path ∧ G.next v = []) →
      G.visitAll path done vs hvs = .ok (done ++ vs)
  | [], done, _, _, _ => by rw [visitAll, List.append_nil]
  | v :: vs, done, hvs, hn, hl => by
    obtain ⟨hd, hp, hnext⟩ := hl v List.mem_cons_self
    have hempty : ∀ (ws : List Uid) (hws : ∀ w ∈ ws, w ∈ G.vertices), ws = [] →
        G.visitAll (v :: path) done ws hws = .ok done := by
      rintro ws hws rfl
      rw [visitAll]
    have hvisit : G.visit (v :: path) done v = .ok (done ++ [v]) := by
      rw [visit, hempty _ _ hnext]
    obtain ⟨hv, hn⟩ := List.nodup_cons.1 hn
    have hrest := visitAll_leaves vs (done ++ [v]) (fun w hw => hvs w (List.mem_cons_of_mem v hw)) hn
      fun w hw => by
        obtain ⟨hwd, hwp, hwnext⟩ := hl w (List.mem_cons_of_mem v hw)
        have hne : w ≠ v := fun he => hv (he ▸ hw)
        exact ⟨by simp [hwd, hne], hwp, hwnext⟩
    rw [visitAll, if_neg hd, dif_neg hp]
    simp only [hvisit]
    rw [hrest, List.append_assoc, List.singleton_append]

/-- Successors without successors come in their order, and then the start. -/
theorem order_of_leaves (hn : (G.next start).Nodup)
    (hl : ∀ v ∈ G.next start, v ≠ start ∧ G.next v = []) :
    G.order start = .ok (G.next start ++ [start]) := by
  have hall : G.visitAll [start] [] (G.next start) (G.next_mem start) = .ok ([] ++ G.next start) :=
    visitAll_leaves _ _ _ hn fun v hv => by
      obtain ⟨hne, hnext⟩ := hl v hv
      exact ⟨by simp, by simpa using hne, hnext⟩
  rw [order, visit, hall]
  rfl

end Digraph

namespace Entity

variable {s : Settings} {relevant : UidSet} {g : Store} {e : Generated}

/-- The instantiations in the architecture. -/
def Design.instantiations (d : Design) : List Instantiation := d.netlist.elim [] Netlist.instantiations

/-- An entity of the report has this name. -/
def Report.Declares (r : Report) (name : String) : Prop :=
  ∃ e ∈ r.generated, Identifier.ofText e.label = name

instance (r : Report) (name : String) : Decidable (r.Declares name) :=
  inferInstanceAs (Decidable (∃ e ∈ r.generated, Identifier.ofText e.label = name))

/-! ### When an algorithm is due -/

namespace Trace

/-- What a run over these algorithms has done when it comes to one of them. -/
def due (s : Settings) (relevant : UidSet) (state : Report × Trace) (algorithms : List Uid) (a : Uid) :
    Report × Trace :=
  (algorithms.takeWhile (· != a)).foldl (generateNext s relevant) state

theorem due_cons_self (state : Report × Trace) (l : List Uid) (a : Uid) :
    due s relevant state (a :: l) a = state := by
  simp [due]

theorem due_cons_of_ne {a b : Uid} (h : b ≠ a) (state : Report × Trace) (l : List Uid) :
    due s relevant state (b :: l) a = due s relevant (generateNext s relevant state b) l a := by
  simp [due, h]

theorem due_append_cons {a : Uid} {before after : List Uid} {state : Report × Trace} (ha : a ∉ before) :
    due s relevant state (before ++ a :: after) a = before.foldl (generateNext s relevant) state := by
  have htake : (before ++ a :: after).takeWhile (· != a) = before := by
    rw [List.takeWhile_append_of_pos fun b hb => ?_]
    · simp
    · have hne : b ≠ a := fun h => ha (h ▸ hb)
      simpa using hne
  rw [due, htake]

/-- What is in a report stays there. -/
theorem mem_generated_foldl (l : List Uid) : ∀ state : Report × Trace, e ∈ state.1.generated →
    e ∈ (l.foldl (generateNext s relevant) state).1.generated := by
  induction l with
  | nil => exact fun _ he => he
  | cons a l ih =>
    intro state he
    refine ih _ ?_
    unfold generateNext
    simp only
    split
    · exact List.mem_append_left _ he
    · exact he

/-- A new entity is made of its algorithm as it is at the time. -/
theorem describes_generateNext {state : Report × Trace} {a : Uid}
    (ha : a ∈ state.2.store.allClasses .algorithm)
    (he : e ∈ (generateNext s relevant state a).1.generated) :
    e ∈ state.1.generated ∨ Describes state.2.store s relevant a e := by
  have hspec := generateEntity_spec s relevant ha
  unfold generateNext at he
  simp only at he
  split at he
  · rename_i e' t' hgen
    rw [hgen] at hspec
    obtain ⟨e'', he'', hd, -⟩ := hspec.resolve_left fun ⟨⟨f, hf⟩, _⟩ => by cases hf
    obtain rfl := Except.ok.inj he''
    rcases List.mem_append.1 he with he | he
    · exact .inl he
    · obtain rfl := List.mem_singleton.1 he
      exact .inr hd
  · exact .inl he

/-- **The entities of a run** are made of their algorithms as they are when these are due. -/
theorem describes_foldl (l : List Uid) : ∀ state : Report × Trace, l.Nodup →
    (∀ a ∈ l, a ∈ g.allClasses .algorithm) → Stored s g state.1 state.2.store →
    e ∈ (l.foldl (generateNext s relevant) state).1.generated →
    e ∈ state.1.generated ∨
      e.algorithm ∈ l ∧ Describes (due s relevant state l e.algorithm).2.store s relevant e.algorithm e := by
  induction l with
  | nil => exact fun _ _ _ _ he => .inl he
  | cons a l ih =>
    intro state hn hl hst he
    obtain ⟨hal, hn⟩ := List.nodup_cons.1 hn
    obtain ⟨ha, hl⟩ := List.forall_mem_cons.1 hl
    rcases ih _ hn hl (hst.generateNext ha) he with he | ⟨hmem, hd⟩
    · rcases describes_generateNext (allClasses_mono hst.extended ha) he with he | hd
      · exact .inl he
      · refine .inr ⟨hd.algorithm ▸ List.mem_cons_self, ?_⟩
        rw [hd.algorithm, due_cons_self]
        exact hd
    · have hne : a ≠ e.algorithm := fun h => hal (h ▸ hmem)
      rw [due_cons_of_ne hne]
      exact .inr ⟨List.mem_cons_of_mem a hmem, hd⟩

end Trace

end Entity

open Entity

namespace Store

variable {g : Store} {s : Settings} {targets relevant : UidSet} {uid label : String} {r : Report}
  {t : Trace} {a c : Uid} {e : Generated}

/-- A text has one instantiation for each algorithm class that a part realizes. -/
theorem instantiations_design : (g.design s relevant (g.context a)).instantiations =
    (g.partsOf a).toList.flatMap fun p => (g.partClasses p).toList.map (g.instantiation p) := by
  -- without parts there is no netlist, and the list on the right is empty as well
  by_cases hparts : (g.partsOf a).isEmpty
  · have hnil : (g.partsOf a).toList = [] := List.isEmpty_iff.1 hparts
    simp [Design.instantiations, design, context, hparts, hnil]
  · simp [Design.instantiations, design, context, hparts, netlist]

theorem mem_instantiations {i : Instantiation} :
    i ∈ (g.design s relevant (g.context a)).instantiations ↔
      ∃ p ∈ g.partsOf a, ∃ c ∈ g.partClasses p, g.instantiation p c = i := by
  rw [instantiations_design]
  simp only [List.mem_flatMap, List.mem_map, UidSet.mem_toList]

/-- What a run has done when it comes to an algorithm. -/
def whenDue (g : Store) (s : Settings) (targets : UidSet) (a : Uid) : Report × Trace :=
  Trace.due s (g.relevantDatatypes s)
    (⟨[], g.skipped s targets⟩,
      (Trace.start g).note ((g.skipped s targets).map fun c => .skipped c.1 c.2))
    (g.plan s targets).order a

theorem stored_whenDue (hs : g.select uid label = .ok targets) (a : Uid) :
    Trace.Stored s g (g.whenDue s targets a).1 (g.whenDue s targets a).2.store := by
  refine Trace.stored_start.foldl _ _ fun b hb => ?_
  exact mem_allClasses_of_mem_plan hs ((List.takeWhile_sublist _).subset hb)

theorem describes_whenDue (hs : g.select uid label = .ok targets)
    (he : e ∈ (g.carryOut s targets).1.generated) : e.algorithm ∈ (g.plan s targets).order ∧
      Trace.Describes (g.whenDue s targets e.algorithm).2.store s (g.relevantDatatypes s)
        e.algorithm e := by
  have hrun := Trace.describes_foldl _ _ (serves_plan g s targets).distinct
    (fun a ha => mem_allClasses_of_mem_plan hs ha) (Trace.stored_start (s := s)) he
  exact hrun.resolve_left List.not_mem_nil

/-- What is stored before an algorithm that stands in front is stored before this one. -/
theorem mem_whenDue {before after : List Uid} (hsplit : (g.plan s targets).order = before ++ a :: after)
    (hc : c ∈ before) (he : e ∈ (g.whenDue s targets c).1.generated) :
    e ∈ (g.whenDue s targets a).1.generated := by
  have hnodup := (serves_plan g s targets).distinct
  rw [hsplit] at hnodup
  have ha : a ∉ before := fun h => (List.nodup_append.1 hnodup).2.2 a h a List.mem_cons_self rfl
  obtain ⟨front, back, rfl, hfront⟩ := List.eq_append_cons_of_mem hc
  have hsplit' : (g.plan s targets).order = front ++ c :: (back ++ a :: after) := by simp [hsplit]
  rw [whenDue, hsplit', Trace.due_append_cons hfront] at he
  rw [whenDue, hsplit, Trace.due_append_cons ha, List.foldl_append]
  exact Trace.mem_generated_foldl _ _ he

/-- A part class that may be generated has an entity under the label that it has for the text of an
algorithm whose part realizes it. -/
theorem declares_of_mem_subAlgorithms (h : g.generate s uid label = .ok (r, t))
    (hs : g.select uid label = .ok targets) (hrec : s.recursive) (hok : r.ok)
    (ha : a ∈ (g.plan s targets).order) (hc : c ∈ g.subAlgorithms a)
    (hx : c ∉ (g.whenDue s targets a).2.store.notGenerated) :
    r.Declares (Identifier.ofText ((g.whenDue s targets a).2.store.labelOf c)) := by
  have hserves := serves_plan g s targets
  have hsta := stored_whenDue (s := s) hs a
  have hstc := stored_whenDue (s := s) hs c
  have hxg : c ∉ g.notGenerated := fun hm => hx (by
    rw [notGenerated, UidSet.mem_insert] at hm ⊢
    exact hm.imp_right (allClasses_mono hsta.extended))
  -- it is planned, and in front of the algorithm
  obtain ⟨before, after, hsplit⟩ := List.append_of_mem ha
  have hbefore : c ∈ before :=
    hserves.sorted hrec before a after hsplit c (Digraph.step_without.2 ⟨step_composition.2 hc, hxg⟩)
  -- nothing has failed, so it has an entity
  have hmem : c ∈ r.algorithms := by
    obtain ⟨lost, hfailed, hperm⟩ := disposes_generate h hs
    have hnil : lost = [] := by
      rw [List.isEmpty_iff.1 hok] at hfailed
      simpa using (List.append_eq_nil_iff.1 hfailed.symm).2
    rw [hnil, List.map_nil, List.append_nil] at hperm
    rw [hperm.mem_iff, hsplit]
    exact List.mem_append_left _ hbefore
  obtain ⟨e, he, rfl⟩ := List.mem_map.1 hmem
  obtain ⟨targets', hs', hrun, -⟩ := generate_eq_ok.1 h
  obtain rfl := Except.ok.inj (hs.symm.trans hs')
  have hd := (describes_whenDue hs (hrun ▸ he)).2
  -- its label has not changed up to then, for it is no implementation class
  have hcg : e.algorithm ∈ g := g.mem_uidList_of_mem_subAlgorithms a _ (UidSet.mem_toList.2 hc)
  have hne : ∀ e' ∈ (g.whenDue s targets a).1.generated, e.algorithm ≠ e'.implementation := by
    intro e' he' heq
    refine hx (UidSet.mem_insert.2 (.inr ?_))
    rw [heq]
    exact (hsta.stored e' he').2.1
  have hlabel := hsta.others _ hcg hne
  have hlabel' := hstc.others _ hcg fun e' he' => hne e' (mem_whenDue hsplit hbefore he')
  exact ⟨e, he, by rw [hd.label, hlabel, hlabel']⟩

/-- **What a recursive run refers to**: if nothing has failed, every entity that a text instantiates is in
the report just if this holds for the part classes that are not generated, which are implementation
classes and the root of the algorithms, and for those that the run itself has added. -/
theorem generate_closed_iff (h : g.generate s uid label = .ok (r, t))
    (hs : g.select uid label = .ok targets) (hrec : s.recursive) (hok : r.ok) :
    ∀ e ∈ r.generated,
      let k := (g.whenDue s targets e.algorithm).2.store
      let d := k.design s (g.relevantDatatypes s) (k.context e.algorithm)
      e.text = d.text ∧ d.name = Identifier.ofText e.label ∧
        ((∀ i ∈ d.instantiations, r.Declares i.entity) ↔
          ∀ p ∈ k.partsOf e.algorithm, ∀ c ∈ k.partClasses p,
            c ∈ k.notGenerated ∨ c ∉ g.subAlgorithms e.algorithm →
              r.Declares (Identifier.ofText (k.labelOf c))) := by
  intro e he k d
  obtain ⟨targets', hs', hrun, -⟩ := generate_eq_ok.1 h
  obtain rfl := Except.ok.inj (hs.symm.trans hs')
  obtain ⟨ha, hd⟩ := describes_whenDue hs (hrun ▸ he)
  refine ⟨hd.text, congrArg Identifier.ofText hd.label.symm, ?_⟩
  constructor
  · intro hall p hp c hc _
    exact hall (k.instantiation p c) (mem_instantiations.2 ⟨p, hp, c, hc, rfl⟩)
  · intro hall i hi
    obtain ⟨p, hp, c, hc, rfl⟩ := mem_instantiations.1 hi
    by_cases hx : c ∈ k.notGenerated ∨ c ∉ g.subAlgorithms e.algorithm
    · exact hall p hp c hc hx
    · rw [not_or, not_not] at hx
      exact declares_of_mem_subAlgorithms h hs hrec hok ha hx.2 hx.1

/-! ### A part that realizes an implementation class -/

open Hyperedge in
/-- The part of `Top` realizes `Sub` and a class that holds a text of `Sub`. -/
def wrappedSub : Store where
  edges := vocabularyEdges ++ [
    concept "Top" "Top",
    fact (numbered Vocabulary.isA 6) "IS-A" ["Top"] [Vocabulary.algorithm] Vocabulary.isA,
    concept "Sub" "Sub",
    fact (numbered Vocabulary.isA 7) "IS-A" ["Sub"] [Vocabulary.algorithm] Vocabulary.isA,
    concept "Sub.vhd" "entity Sub is end Sub;",
    fact (numbered Vocabulary.isA 8) "IS-A" ["Sub.vhd"] [Vocabulary.implementation] Vocabulary.isA,
    fact (numbered Vocabulary.isA 9) "IS-A" ["Sub.vhd"] ["Sub"] Vocabulary.isA,
    concept "Sub1" "sub",
    fact (numbered Vocabulary.instanceOf 1) "INSTANCE-OF" ["Sub1"] ["Sub", "Sub.vhd"]
      Vocabulary.instanceOf,
    fact (numbered Vocabulary.partOfNetwork 1) "PART-OF" ["Sub1"] ["Top"] Vocabulary.partOfNetwork]
  issued _ := 0
  distinct := by decide +kernel
  tidy := by decide +kernel

/-- The default settings, recursive. -/
def recursiveDefault : Settings := { Settings.default with recursive := true }

theorem plan_wrappedSub : wrappedSub.plan recursiveDefault (.ofList ["Top"]) = ⟨["Sub", "Top"], []⟩ := by
  have hfacts : (wrappedSub.subAlgorithms "Top").toList = ["Sub", "Sub.vhd"] ∧
      (∀ v ∈ ["Sub", "Sub.vhd"], v ≠ "Top" ∧ (wrappedSub.subAlgorithms v).toList = []) ∧
      "Sub" ∉ wrappedSub.notGenerated ∧ "Sub.vhd" ∈ wrappedSub.notGenerated ∧
      "Top" ∉ wrappedSub.notGenerated := by decide +kernel
  obtain ⟨hnext, hleaves, hex⟩ := hfacts
  have horder : wrappedSub.composition.order "Top" = .ok ["Sub", "Sub.vhd", "Top"] := by
    have hn : wrappedSub.composition.next "Top" = ["Sub", "Sub.vhd"] := (next_composition "Top").trans hnext
    have hl : ∀ v ∈ ["Sub", "Sub.vhd"], v ≠ "Top" ∧ wrappedSub.composition.next v = [] := fun v hv =>
      ⟨(hleaves v hv).1, (next_composition v).trans (hleaves v hv).2⟩
    rw [Digraph.order_of_leaves (by rw [hn]; decide) (by rwa [hn]), hn]
    rfl
  have hlist : (UidSet.ofList ["Top"]).toList = ["Top"] := by decide
  rw [plan, hlist]
  simp [Plan.addTarget, Plan.add, horder, hex, recursiveDefault]

/-- Both algorithms have an entity in the report, and by the time that the text of `Top` is due the class with
the text of `Sub` is one of its part classes. -/
theorem generate_wrappedSub : ∃ r t, wrappedSub.generate recursiveDefault "" "Top" = .ok (r, t) ∧
    wrappedSub.select "" "Top" = .ok (.ofList ["Top"]) ∧ r.ok ∧
      r.generated.map (fun e => (e.algorithm, e.label)) = [("Sub", "Sub"), ("Top", "Top")] ∧
      let k := (wrappedSub.whenDue recursiveDefault (.ofList ["Top"]) "Top").2.store
      "entity_Sub_is_end_Sub" ∈ (k.design recursiveDefault (wrappedSub.relevantDatatypes recursiveDefault)
        (k.context "Top")).instantiations.map (·.entity) := by
  have hrun : wrappedSub.carryOut recursiveDefault (.ofList ["Top"]) =
      ["Sub", "Top"].foldl (Trace.generateNext recursiveDefault
        (wrappedSub.relevantDatatypes recursiveDefault)) (⟨[], []⟩, Trace.start wrappedSub) := by
    rw [carryOut, skipped, plan_wrappedSub]
    rfl
  have hdue : wrappedSub.whenDue recursiveDefault (.ofList ["Top"]) "Top" =
      ["Sub"].foldl (Trace.generateNext recursiveDefault
        (wrappedSub.relevantDatatypes recursiveDefault)) (⟨[], []⟩, Trace.start wrappedSub) := by
    rw [whenDue, skipped, plan_wrappedSub]
    rfl
  have heval : wrappedSub.select "" "Top" = .ok (.ofList ["Top"]) ∧
      let r := (["Sub", "Top"].foldl (Trace.generateNext recursiveDefault
        (wrappedSub.relevantDatatypes recursiveDefault)) (⟨[], []⟩, Trace.start wrappedSub)).1
      let k := (["Sub"].foldl (Trace.generateNext recursiveDefault
        (wrappedSub.relevantDatatypes recursiveDefault)) (⟨[], []⟩, Trace.start wrappedSub)).2.store
      r.ok ∧ r.generated.map (fun e => (e.algorithm, e.label)) = [("Sub", "Sub"), ("Top", "Top")] ∧
        "entity_Sub_is_end_Sub" ∈ (k.design recursiveDefault (wrappedSub.relevantDatatypes recursiveDefault)
          (k.context "Top")).instantiations.map (·.entity) := by
    decide +kernel
  rw [← hrun, ← hdue] at heval
  obtain ⟨hselect, heval⟩ := heval
  exact ⟨_, _, generate_eq_ok.2 ⟨_, hselect, rfl, rfl⟩, hselect, heval⟩

theorem generate_closed_iff_wrappedSub : ∃ r t,
    wrappedSub.generate recursiveDefault "" "Top" = .ok (r, t) ∧
    wrappedSub.select "" "Top" = .ok (.ofList ["Top"]) ∧ recursiveDefault.recursive ∧ r.ok ∧
    r.generated ≠ [] ∧ ∀ e ∈ r.generated,
      let k := (wrappedSub.whenDue recursiveDefault (.ofList ["Top"]) e.algorithm).2.store
      let d := k.design recursiveDefault (wrappedSub.relevantDatatypes recursiveDefault)
        (k.context e.algorithm)
      e.text = d.text ∧ d.name = Identifier.ofText e.label ∧
        ((∀ i ∈ d.instantiations, r.Declares i.entity) ↔
          ∀ p ∈ k.partsOf e.algorithm, ∀ c ∈ k.partClasses p,
            c ∈ k.notGenerated ∨ c ∉ wrappedSub.subAlgorithms e.algorithm →
              r.Declares (Identifier.ofText (k.labelOf c))) := by
  obtain ⟨r, t, h, hs, hok, hmap, -⟩ := generate_wrappedSub
  have hne : r.generated ≠ [] := fun hnil => by simp [hnil] at hmap
  exact ⟨r, t, h, hs, rfl, hok, hne, generate_closed_iff h hs rfl hok⟩

/-- Nothing fails, and yet the text of `Top` instantiates an entity that the report does not have. -/
theorem undeclared_wrappedSub : ∃ r t, wrappedSub.generate recursiveDefault "" "Top" = .ok (r, t) ∧
    recursiveDefault.recursive ∧ r.ok ∧ ∃ e ∈ r.generated, ∃ d : Design, e.text = d.text ∧
      ∃ i ∈ d.instantiations, i.entity = "entity_Sub_is_end_Sub" ∧ ¬ r.Declares i.entity := by
  obtain ⟨r, t, h, hs, hok, hmap, hinst⟩ := generate_wrappedSub
  obtain ⟨targets, hs', hrun, -⟩ := generate_eq_ok.1 h
  obtain rfl := Except.ok.inj (hs.symm.trans hs')
  obtain ⟨e, he, halg⟩ : ∃ e ∈ r.generated, e.algorithm = "Top" := by
    have htop : ("Top", "Top") ∈ r.generated.map fun e => (e.algorithm, e.label) := by simp [hmap]
    obtain ⟨e, he, heq⟩ := List.mem_map.1 htop
    exact ⟨e, he, congrArg Prod.fst heq⟩
  have hd := (describes_whenDue hs (hrun ▸ he)).2
  rw [halg] at hd
  obtain ⟨i, hi, hentity⟩ := List.mem_map.1 hinst
  refine ⟨r, t, h, rfl, hok, e, he, _, hd.text, i, hi, hentity, ?_⟩
  rintro ⟨e', he', hname⟩
  have hlabel : e'.label = "Sub" ∨ e'.label = "Top" := by
    have hmem : (e'.algorithm, e'.label) ∈ r.generated.map fun e => (e.algorithm, e.label) :=
      List.mem_map_of_mem he'
    rw [hmap] at hmem
    simp only [List.mem_cons, Prod.mk.injEq, List.not_mem_nil, or_false] at hmem
    exact hmem.imp And.right And.right
  rw [hentity] at hname
  rcases hlabel with hlabel | hlabel
  · rw [hlabel] at hname
    revert hname
    decide +kernel
  · rw [hlabel] at hname
    revert hname
    decide +kernel

end Store

end DesignGraph
