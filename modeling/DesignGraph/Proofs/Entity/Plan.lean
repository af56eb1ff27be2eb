import DesignGraph.Entity.Generate
import DesignGraph.Proofs.Composition.Order
import DesignGraph.Proofs.Relation.Reach

/-! # What is planned

A run plans the selected algorithms and, with recursive settings, what they are composed of. Either way
only algorithm classes are planned (`mem_allClasses_of_mem_plan`), none of which holds a generated text.
Apart from what is excluded, these are the targets that reach no cycle and, with recursive settings, all
that they reach; the other targets are set aside, each with a cycle (`Plan.Serves`, `serves_plan`). -/

namespace DesignGraph

namespace Entity.Plan

variable {s : Settings} {excluded : UidSet} {composition : Digraph} {p : Plan} {uids : List Uid}
  {target u : Uid}

/-- One uid more, unless it is excluded or planned already. -/
def extend (excluded : UidSet) (order : List Uid) (u : Uid) : List Uid :=
  if u ∈ excluded ∨ u ∈ order then order else order ++ [u]

theorem order_add : (p.add excluded uids).order = uids.foldl (extend excluded) p.order := rfl

theorem mem_extend {order : List Uid} {v : Uid} :
    v ∈ extend excluded order u ↔ v ∈ order ∨ v = u ∧ u ∉ excluded := by
  unfold extend
  split <;> grind

theorem mem_foldl_extend : ∀ (l order : List Uid),
    u ∈ l.foldl (extend excluded) order ↔ u ∈ order ∨ u ∈ l ∧ u ∉ excluded
  | [], order => by simp
  | v :: l, order => by
    rw [List.foldl_cons, mem_foldl_extend l, mem_extend]
    grind

theorem mem_add : u ∈ (p.add excluded uids).order ↔ u ∈ p.order ∨ u ∈ uids ∧ u ∉ excluded :=
  mem_foldl_extend uids p.order

theorem nodup_extend {order : List Uid} (h : order.Nodup) : (extend excluded order u).Nodup := by
  unfold extend
  split
  · exact h
  · rename_i hu
    have hnew : u ∉ order := fun hm => hu (.inr hm)
    rw [List.nodup_append]
    refine ⟨h, by simp, ?_⟩
    rintro v hv w hw rfl
    obtain rfl := List.mem_singleton.1 hw
    exact hnew hv

theorem nodup_add (h : p.order.Nodup) : (p.add excluded uids).order.Nodup := by
  rw [order_add]
  generalize p.order = order at h
  induction uids generalizing order with
  | nil => exact h
  | cons u l ih => exact ih (extend excluded order u) (nodup_extend h)

/-- What is planned is sorted, if the uids that are added are: the successors of a uid stand in front of
it, so they are planned or excluded when its turn comes. -/
theorem sorted_add (hp : (composition.without excluded).Sorted p.order) (hl : composition.Sorted uids) :
    (composition.without excluded).Sorted (p.add excluded uids).order := by
  have hfold : ∀ (rest before order : List Uid), uids = before ++ rest →
      (∀ v ∈ before, v ∉ excluded → v ∈ order) → (composition.without excluded).Sorted order →
      (composition.without excluded).Sorted (rest.foldl (extend excluded) order) := by
    intro rest
    induction rest with
    | nil => exact fun _ _ _ _ h => h
    | cons u rest ih =>
      intro before order hsplit hbefore horder
      refine ih (before ++ [u]) _ (by simp [hsplit]) (fun v hv hx => ?_) ?_
      · rw [mem_extend]
        rcases List.mem_append.1 hv with hv | hv
        · exact .inl (hbefore v hv hx)
        · obtain rfl := List.mem_singleton.1 hv
          exact .inr ⟨rfl, hx⟩
      · unfold extend
        split
        · exact horder
        · refine horder.concat fun v hv => ?_
          obtain ⟨hstep, hx⟩ := Digraph.step_without.1 hv
          exact hbefore v (hl before u rest hsplit v hstep) hx
  exact hfold uids [] p.order rfl (by simp) hp

theorem add_congr {excluded' : UidSet} (hx : ∀ u ∈ uids, u ∈ excluded ↔ u ∈ excluded') :
    p.add excluded uids = p.add excluded' uids := by
  have hfold : ∀ order : List Uid, uids.foldl (fun order u =>
      if u ∈ excluded ∨ u ∈ order then order else order ++ [u]) order = uids.foldl (fun order u =>
        if u ∈ excluded' ∨ u ∈ order then order else order ++ [u]) order := fun order =>
    List.foldl_ext _ _ _ fun order u hu => by simp only [hx u hu]
  rw [add, add, hfold]

/-- What is planned for a target is the target or can be reached from it. -/
theorem mem_addTarget (h : u ∈ (p.addTarget s composition excluded target).order) :
    u ∈ p.order ∨ composition.Reaches target u ∧ u ∉ excluded := by
  unfold addTarget at h
  split at h
  · exact .inl h
  · rename_i order ho
    rcases mem_add.1 h with hu | ⟨hu, hx⟩
    · exact .inl hu
    · refine .inr ⟨?_, hx⟩
      split at hu
      · exact (Digraph.isOrder_of_ok ho).mem_iff u |>.1 hu
      · obtain rfl := List.mem_singleton.1 hu
        exact .refl

/-! ### What a plan serves -/

/-- The plan serves these targets: those without a cycle are planned, with recursive settings together with
all that can be reached from them, and those with a cycle are left out. -/
structure Serves (s : Settings) (composition : Digraph) (excluded : UidSet) (targets : List Uid)
    (p : Plan) : Prop where
  distinct : p.order.Nodup
  mem_iff : ∀ u, u ∈ p.order ↔ u ∉ excluded ∧ ∃ target ∈ targets, ¬ composition.Cyclic target ∧
    (if s.recursive then composition.Reaches target u else u = target)
  sorted : s.recursive → (composition.without excluded).Sorted p.order
  skipped : (p.cyclic.map Prod.fst).Sublist targets
  skipped_iff : ∀ target ∈ targets, target ∈ p.cyclic.map Prod.fst ↔ composition.Cyclic target
  cycles : ∀ c ∈ p.cyclic, composition.IsCycle c.1 c.2

theorem serves_nil : Serves s composition excluded [] ⟨[], []⟩ where
  distinct := List.nodup_nil
  mem_iff := by simp
  sorted _ := Digraph.sorted_nil
  skipped := List.Sublist.refl []
  skipped_iff := by simp
  cycles := by simp

namespace Serves

variable {targets : List Uid} (hp : Serves s composition excluded targets p)

include hp

theorem skipped_iff_mem (target : Uid) : target ∈ p.cyclic.map Prod.fst ↔
    target ∈ targets ∧ composition.Cyclic target := by
  constructor
  · intro h
    have ht := hp.skipped.subset h
    exact ⟨ht, (hp.skipped_iff target ht).1 h⟩
  · rintro ⟨ht, hc⟩
    exact (hp.skipped_iff target ht).2 hc

/-- A target whose composition has a cycle is left out. -/
theorem skip {c : Cycle} (hc : composition.IsCycle target c) :
    Serves s composition excluded (targets ++ [target]) { p with cyclic := p.cyclic ++ [(target, c)] } where
  distinct := hp.distinct
  mem_iff u := by
    rw [hp.mem_iff u]
    refine and_congr_right fun _ => ⟨fun ⟨v, hv, h⟩ => ⟨v, List.mem_append_left _ hv, h⟩, ?_⟩
    rintro ⟨v, hv, hn, h⟩
    rcases List.mem_append.1 hv with hv | hv
    · exact ⟨v, hv, hn, h⟩
    · obtain rfl := List.mem_singleton.1 hv
      exact absurd hc.cyclic hn
  sorted := hp.sorted
  skipped := by
    rw [List.map_append]
    exact hp.skipped.append (List.Sublist.refl [target])
  skipped_iff v hv := by
    rw [List.map_append, List.mem_append, hp.skipped_iff_mem]
    constructor
    · rintro (⟨-, h⟩ | h)
      · exact h
      · obtain rfl := List.mem_singleton.1 h
        exact hc.cyclic
    · intro h
      rcases List.mem_append.1 hv with hv | hv
      · exact .inl ⟨hv, h⟩
      · exact .inr hv
  cycles d hd := by
    rcases List.mem_append.1 hd with hd | hd
    · exact hp.cycles d hd
    · obtain rfl := List.mem_singleton.1 hd
      exact hc

/-- A target without a cycle is planned, with what it is composed of if that is asked for. -/
theorem add {order : List Uid} (ho : composition.IsOrder target order) :
    Serves s composition excluded (targets ++ [target])
      (p.add excluded (if s.recursive then order else [target])) where
  distinct := nodup_add hp.distinct
  mem_iff u := by
    have hnew : u ∈ (if s.recursive then order else [target]) ↔
        if s.recursive then composition.Reaches target u else u = target := by
      split
      · exact ho.mem_iff u
      · exact List.mem_singleton
    rw [mem_add, hp.mem_iff u, hnew]
    constructor
    · rintro (⟨hx, v, hv, h⟩ | ⟨hu, hx⟩)
      · exact ⟨hx, v, List.mem_append_left _ hv, h⟩
      · exact ⟨hx, target, List.mem_append_right _ (List.mem_singleton_self _), ho.not_cyclic, hu⟩
    · rintro ⟨hx, v, hv, hn, h⟩
      rcases List.mem_append.1 hv with hv | hv
      · exact .inl ⟨hx, v, hv, hn, h⟩
      · obtain rfl := List.mem_singleton.1 hv
        exact .inr ⟨h, hx⟩
  sorted hr := by
    rw [if_pos hr]
    exact sorted_add (hp.sorted hr) ho.sorted
  skipped := hp.skipped.trans (List.sublist_append_left targets [target])
  skipped_iff v hv := by
    rcases List.mem_append.1 hv with hv | hv
    · exact hp.skipped_iff v hv
    · obtain rfl := List.mem_singleton.1 hv
      have hn : v ∉ p.cyclic.map Prod.fst := fun h =>
        ho.not_cyclic ((hp.skipped_iff_mem v).1 h).2
      exact iff_of_false hn ho.not_cyclic
  cycles := hp.cycles

/-- **The step**: one target more is served. -/
theorem addTarget (target : Uid) :
    Serves s composition excluded (targets ++ [target]) (p.addTarget s composition excluded target) := by
  unfold Plan.addTarget
  split
  · rename_i c hc
    exact hp.skip (Digraph.isCycle_of_error hc)
  · rename_i order ho
    exact hp.add (Digraph.isOrder_of_ok ho)

theorem foldl (l : List Uid) : Serves s composition excluded (targets ++ l)
    (l.foldl (Plan.addTarget s composition excluded) p) := by
  induction l generalizing targets p with
  | nil => simpa using hp
  | cons target l ih =>
    have h := ih (hp.addTarget target)
    rwa [List.append_assoc, List.singleton_append] at h

/-- Nothing that is planned is skipped: a cycle that can be reached from a planned uid can be reached from
the target that it is planned for. -/
theorem not_cyclic (hu : u ∈ p.order) : ¬ composition.Cyclic u := by
  obtain ⟨-, target, -, hn, h⟩ := (hp.mem_iff u).1 hu
  have hreach : composition.Reaches target u := by
    split at h
    · exact h
    · rw [h]
      exact .refl
  rintro ⟨v, hv, hc⟩
  exact hn ⟨v, hreach.trans hv, hc⟩

end Serves

end Entity.Plan

namespace Store

open Entity

variable {g : Store} {s : Settings} {targets : UidSet} {uid label : String} {u v : Uid}

/-- **A plan** serves its targets. -/
theorem serves_plan (g : Store) (s : Settings) (targets : UidSet) :
    Plan.Serves s g.composition g.notGenerated targets.toList (g.plan s targets) :=
  Plan.serves_nil.foldl targets.toList

theorem mem_plan (h : u ∈ (g.plan s targets).order) :
    (∃ target ∈ targets, g.composition.Reaches target u) ∧ u ∉ g.notGenerated := by
  have hfold : ∀ (l : List Uid) (p : Plan),
      u ∈ (l.foldl (Plan.addTarget s g.composition g.notGenerated) p).order →
        u ∈ p.order ∨ (∃ target ∈ l, g.composition.Reaches target u) ∧ u ∉ g.notGenerated := by
    intro l
    induction l with
    | nil => exact fun p h => .inl h
    | cons v l ih =>
      intro p h
      rcases ih _ h with h | ⟨⟨target, ht, hr⟩, hx⟩
      · exact (Plan.mem_addTarget h).imp_right fun ⟨hr, hx⟩ => ⟨⟨v, List.mem_cons_self, hr⟩, hx⟩
      · exact .inr ⟨⟨target, List.mem_cons_of_mem v ht, hr⟩, hx⟩
  exact (hfold targets.toList ⟨[], []⟩ h).resolve_left (by simp)

theorem mem_allClasses_of_mem_classes {root : ClassRoot} {below : UidSet}
    (h : v ∈ g.classes root label below) : v ∈ g.allClasses root := by
  have hall : v ∈ g.subclasses (.single root.uid) label .inverse → v ∈ g.allClasses root := fun h =>
    mem_filterByLabel_empty.2 ⟨(UidSet.mem_filter.1 h).1, mem_of_mem_filterByLabel h⟩
  unfold classes at h
  simp only at h
  split at h
  · exact hall h
  · exact hall (UidSet.mem_inter.1 h).1

theorem mem_allClasses_of_mem_relevantDatatypes (h : v ∈ g.relevantDatatypes s) :
    v ∈ g.allClasses .datatype := by
  unfold relevantDatatypes at h
  split at h
  · exact h
  · split at h
    · exact h
    · exact mem_allClasses_of_mem_classes h

theorem mem_candidates_of_select (h : g.select uid label = .ok targets) (hv : v ∈ targets) :
    v ∈ g.candidates label := by
  have hsub : ∀ w, w ∈ (if uid = "" then g.candidates label else g.candidates label ∩ .single uid) →
      w ∈ g.candidates label := by
    intro w hw
    split at hw
    · exact hw
    · exact (UidSet.mem_inter.1 hw).1
  unfold select at h
  simp only at h
  generalize (if uid = "" then g.candidates label else g.candidates label ∩ .single uid) = chosen
    at h hsub
  split at h
  · cases h
  · obtain rfl := Except.ok.inj h
    exact hsub v hv

/-- Only algorithm classes are planned. -/
theorem mem_allClasses_of_mem_plan (hs : g.select uid label = .ok targets)
    (h : u ∈ (g.plan s targets).order) : u ∈ g.allClasses .algorithm := by
  obtain ⟨⟨target, ht, hr⟩, -⟩ := mem_plan h
  rcases Relation.ReflTransGen.cases_tail hr with rfl | ⟨v, -, hv⟩
  · have hc := mem_candidates_of_select hs ht
    exact mem_allClasses_of_mem_classes (UidSet.mem_diff.1 hc).1
  · obtain ⟨p, -, hu⟩ := UidSet.mem_flatMap.1 (step_composition.1 hv)
    exact (UidSet.mem_inter.1 hu).2

end Store

end DesignGraph
