import DesignGraph.Proofs.Relation.Index
import DesignGraph.Relation.Closure

/-! # The closure is exact

The rounds over the index end on every graph, whatever cycles, self loops, set-valued facts and unknown ends
it has: there is one round for each member of the closure (`Indexed.Faithful.waiting_eq_nil_iff`), and what
has been met by then is the closure (`Indexed.Faithful.met_eq_closure`). What a round preserves is `Sweeps`,
which also counts the rounds.

* `Store.mem_subclasses_iff`: the class lattice, told by chains of facts.
* `Ontology.class_closure`: all of it, after any history. -/

namespace DesignGraph

open Relation Store

namespace UidSet

variable {s t : UidSet} {u : Uid}

theorem size_le_of_subset (h : ∀ u ∈ s, u ∈ t) : s.size ≤ t.size :=
  (List.subperm_of_subset s.nodup_toList h).length_le

theorem size_insert (hu : u ∉ s) : (s.insert u).size = s.size + 1 := by
  have hperm : (s.insert u).toList.Perm (u :: s.toList) :=
    (List.perm_ext_iff_of_nodup (s.insert u).nodup_toList (List.nodup_cons.2 ⟨hu, s.nodup_toList⟩)).2
      fun v => by simp
  exact hperm.length_eq

end UidSet

/-! ### Meeting uids -/

namespace Frontier

variable {s : Frontier} {u v : Uid}

theorem mem_met_meet : v ∈ (s.meet u).met ↔ v ∈ s.met ∨ v = u := by
  unfold meet
  split
  · exact ⟨.inl, fun h => h.elim id fun h => by rwa [h]⟩
  · exact UidSet.mem_insert.trans Or.comm

theorem mem_waiting_meet : v ∈ (s.meet u).waiting ↔ v ∈ s.waiting ∨ v = u ∧ v ∉ s.met := by
  unfold meet
  split <;> simp <;> grind

/-- Of what a uid adds to the met ones, it adds as much to those that wait. -/
theorem size_met_meet (s : Frontier) (u : Uid) :
    (s.meet u).met.size + s.waiting.length = s.met.size + (s.meet u).waiting.length := by
  unfold meet
  split
  · rfl
  · rename_i hu
    simp only [UidSet.size_insert hu, List.length_append, List.length_singleton]
    omega

theorem mem_met_foldl {l : List Uid} : ∀ {s : Frontier},
    v ∈ (l.foldl meet s).met ↔ v ∈ s.met ∨ v ∈ l := by
  induction l with
  | nil => simp
  | cons u l ih =>
    intro s
    rw [List.foldl_cons, ih, mem_met_meet, List.mem_cons, or_assoc]

theorem mem_waiting_foldl {l : List Uid} : ∀ {s : Frontier},
    v ∈ (l.foldl meet s).waiting ↔ v ∈ s.waiting ∨ v ∈ l ∧ v ∉ s.met := by
  induction l with
  | nil => simp
  | cons u l ih =>
    intro s
    rw [List.foldl_cons, ih, mem_waiting_meet, mem_met_meet, List.mem_cons]
    tauto

theorem size_met_foldl (l : List Uid) : ∀ s : Frontier,
    (l.foldl meet s).met.size + s.waiting.length = s.met.size + (l.foldl meet s).waiting.length := by
  induction l with
  | nil => exact fun s => rfl
  | cons u l ih =>
    intro s
    rw [List.foldl_cons]
    have hhead := size_met_meet s u
    have htail := ih (s.meet u)
    omega

end Frontier

/-! ### Rounds -/

/-- What holds after `n` rounds over the facts of a kind. -/
structure Sweeps (g : Store) (relation : Uid) (d : Direction) (roots : UidSet) (n : Nat) (s : Frontier) :
    Prop where
  within : ∀ u ∈ s.met, u ∈ g.closure relation d roots
  departed : ∀ u ∈ g.known roots, u ∈ s.met
  queued : ∀ u ∈ s.waiting, u ∈ s.met
  /-- What has been met and does not wait has been followed. -/
  followed : ∀ u ∈ s.met, u ∉ s.waiting → ∀ v, g.Leads relation d u v → v ∈ s.met
  /-- Each round has followed one of those that have been met. -/
  counted : s.met.size = n + s.waiting.length

namespace Sweeps

variable {g : Store} {relation : Uid} {d : Direction} {roots : UidSet} {n : Nat} {s : Frontier}

theorem size_le (hs : Sweeps g relation d roots n s) :
    n + s.waiting.length ≤ (g.closure relation d roots).size :=
  hs.counted ▸ UidSet.size_le_of_subset hs.within

/-- Once nothing waits, everything has been met. -/
theorem met_eq (hs : Sweeps g relation d roots n s) (hnil : s.waiting = []) :
    s.met = g.closure relation d roots := by
  refine UidSet.ext fun v => ⟨hs.within v, fun hv => ?_⟩
  obtain ⟨u, hu, hg, hc⟩ := mem_closure.1 hv
  induction hc with
  | refl => exact hs.departed u (mem_known.2 ⟨hu, hg⟩)
  | @tail a b hc hl ih =>
    exact hs.followed a (ih (mem_closure.2 ⟨u, hu, hg, hc⟩)) (by simp [hnil]) b hl

end Sweeps

namespace Indexed

variable {x : Indexed} {relation : Uid} {d : Direction} {roots : UidSet} {order : List Uid} {n : Nat}
  {s : Frontier} {u v : Uid}

theorem sweeps_departure (hperm : order.Perm (x.store.known roots).toList) :
    Sweeps x.store relation d roots 0 (x.departure roots order) where
  within u hu := by
    obtain ⟨hr, hg⟩ := mem_known.1 hu
    exact mem_closure.2 ⟨u, hr, hg, .refl⟩
  departed u hu := hu
  queued u hu := hperm.mem_iff.1 hu
  followed u hu hw := absurd (hperm.mem_iff.2 hu) hw
  counted := by
    rw [Nat.zero_add]
    exact hperm.length_eq.symm

theorem advance_of_nil (hnil : s.waiting = []) : x.advance relation d s = s := by
  unfold advance
  rw [hnil]

namespace Faithful

theorem mem_stepsFrom (hx : x.Faithful) : v ∈ x.stepsFrom relation d u ↔ x.store.Leads relation d u v := by
  have hone : ∀ facts : Uid → List Uid, (UidSet.single u).toList.flatMap facts = facts u :=
    fun facts => List.flatMap_singleton facts u
  have hforward : v ∈ x.follow (.single relation) Hyperedge.targets (x.index.outgoing u) ↔
      x.store.Leads relation .forward u v := by
    rw [← hone x.index.outgoing, hx.mem_follow_outgoing]
    simp
  have hinverse : v ∈ x.follow (.single relation) Hyperedge.sources (x.index.incoming u) ↔
      x.store.Leads relation .inverse u v := by
    rw [← hone x.index.incoming, hx.mem_follow_incoming]
    simp
  cases d with
  | forward => exact hforward
  | inverse => exact hinverse
  | both => exact List.mem_append.trans ((or_congr hforward hinverse).trans leads_both_iff.symm)

/-- **The step**: a round follows one of those that wait. -/
theorem sweeps_advance (hx : x.Faithful) (hs : Sweeps x.store relation d roots n s)
    (hne : s.waiting ≠ []) : Sweeps x.store relation d roots (n + 1) (x.advance relation d s) := by
  obtain ⟨u, rest, hw⟩ := List.exists_cons_of_ne_nil hne
  have hround : x.advance relation d s =
      (x.stepsFrom relation d u).foldl Frontier.meet { s with waiting := rest } := by
    unfold advance
    rw [hw]
  have hu : u ∈ s.met := hs.queued u (by simp [hw])
  have hmet : ∀ v, v ∈ (x.advance relation d s).met ↔ v ∈ s.met ∨ x.store.Leads relation d u v := by
    intro v
    rw [hround, Frontier.mem_met_foldl, hx.mem_stepsFrom]
  have hwaiting : ∀ v, v ∈ (x.advance relation d s).waiting ↔
      v ∈ rest ∨ x.store.Leads relation d u v ∧ v ∉ s.met := by
    intro v
    rw [hround, Frontier.mem_waiting_foldl, hx.mem_stepsFrom]
  constructor
  case within =>
    intro v hv
    rcases (hmet v).1 hv with hv | hl
    · exact hs.within v hv
    · obtain ⟨w, hw, hg, hc⟩ := mem_closure.1 (hs.within u hu)
      exact mem_closure.2 ⟨w, hw, hg, hc.tail hl⟩
  case departed => exact fun v hv => (hmet v).2 (.inl (hs.departed v hv))
  case queued =>
    intro v hv
    rcases (hwaiting v).1 hv with hv | ⟨hl, -⟩
    · exact (hmet v).2 (.inl (hs.queued v (by simp [hw, hv])))
    · exact (hmet v).2 (.inr hl)
  case followed =>
    intro v hv hnot w hl
    rw [hwaiting, not_or] at hnot
    -- what is met in this round waits, so `v` was met before
    have hold : v ∈ s.met := by
      rcases (hmet v).1 hv with hv | hlead
      · exact hv
      · exact Decidable.byContradiction fun hn => hnot.2 ⟨hlead, hn⟩
    by_cases hvu : v = u
    · exact (hmet w).2 (.inr (hvu ▸ hl))
    · exact (hmet w).2 (.inl (hs.followed v hold (by simp [hw, hvu, hnot.1]) w hl))
  case counted =>
    have hcount := Frontier.size_met_foldl (x.stepsFrom relation d u) { s with waiting := rest }
    have hbefore := hs.counted
    rw [hw, List.length_cons] at hbefore
    simp only [← hround] at hcount
    omega

/-- **The run**: as long as there are members of the closure to follow, each round follows one. -/
theorem sweeps_iterate (hx : x.Faithful) (hperm : order.Perm (x.store.known roots).toList) :
    ∀ {n : Nat}, n ≤ (x.store.closure relation d roots).size →
      Sweeps x.store relation d roots n ((x.advance relation d)^[n] (x.departure roots order)) := by
  intro n
  induction n with
  | zero => exact fun _ => sweeps_departure hperm
  | succ n ih =>
    intro hn
    have hs := ih (by omega)
    rw [Function.iterate_succ_apply']
    refine hx.sweeps_advance hs fun hnil => ?_
    -- with nothing waiting, the closure would have no more than `n` members
    have hsize := hs.counted
    rw [hs.met_eq hnil, hnil, List.length_nil] at hsize
    omega

/-- Nothing waits after one round for each member of the closure. -/
theorem waiting_last (hx : x.Faithful) (hperm : order.Perm (x.store.known roots).toList) :
    ((x.advance relation d)^[(x.store.closure relation d roots).size] (x.departure roots order)).waiting = [] := by
  have hlast : Sweeps x.store relation d roots _ _ := hx.sweeps_iterate hperm le_rfl
  have := hlast.size_le
  exact List.eq_nil_of_length_eq_zero (by omega)

/-- **The rounds end**: the queue is empty after one round for each member of the closure, no earlier and for
good. -/
theorem waiting_eq_nil_iff (hx : x.Faithful) (hperm : order.Perm (x.store.known roots).toList) :
    ((x.advance relation d)^[n] (x.departure roots order)).waiting = [] ↔
      (x.store.closure relation d roots).size ≤ n := by
  constructor
  · intro hnil
    by_contra hlt
    have hs : Sweeps x.store relation d roots n ((x.advance relation d)^[n] (x.departure roots order)) :=
      hx.sweeps_iterate hperm (by omega)
    have hsize := hs.counted
    rw [hs.met_eq hnil, hnil, List.length_nil] at hsize
    omega
  · intro hle
    obtain ⟨k, rfl⟩ := Nat.exists_eq_add_of_le' hle
    rw [Function.iterate_add_apply, Function.iterate_fixed (advance_of_nil (hx.waiting_last hperm))]
    exact hx.waiting_last hperm

/-- **What the rounds find**, once they are over, is the closure. -/
theorem met_eq_closure (hx : x.Faithful) (hperm : order.Perm (x.store.known roots).toList)
    (hnil : ((x.advance relation d)^[n] (x.departure roots order)).waiting = []) :
    ((x.advance relation d)^[n] (x.departure roots order)).met = x.store.closure relation d roots := by
  obtain ⟨k, rfl⟩ := Nat.exists_eq_add_of_le' ((hx.waiting_eq_nil_iff hperm).1 hnil)
  rw [Function.iterate_add_apply, Function.iterate_fixed (advance_of_nil (hx.waiting_last hperm))]
  exact (hx.sweeps_iterate hperm le_rfl).met_eq (hx.waiting_last hperm)

end Faithful

end Indexed

/-! ### The class lattice -/

namespace Store

variable {g : Store} {d : Direction} {roots : UidSet} {u v : Uid}

/-- **The class lattice** holds the known uids that chains of facts reach from the known roots. On the way a
chain may pass unknown uids. -/
theorem mem_subclasses_iff : v ∈ g.subclasses roots "" d ↔
    v ∈ g ∧ ∃ u ∈ roots, u ∈ g ∧ ReflTransGen (g.Leads Vocabulary.isA d) u v := by
  rw [subclasses, mem_filterByLabel_empty, mem_closure, and_comm]

/-- Chains downwards are chains upwards, read from their other end. -/
theorem chain_inverse_iff : ReflTransGen (g.Leads Vocabulary.isA .inverse) u v ↔
    ReflTransGen (g.Leads Vocabulary.isA .forward) v u := by
  have hswap : Function.swap (g.Leads Vocabulary.isA .forward) = g.Leads Vocabulary.isA .inverse := by
    funext a b
    exact propext leads_inverse_iff.symm
  rw [← hswap, reflTransGen_swap]

/-- A fact that leads upwards is a fact of the kind with these ends. -/
theorem leads_forward_iff {r a b : Uid} (hr : r ≠ "") : g.Leads r .forward a b ↔
    ∃ f ∈ g.edges, f.kind = .fact ∧ f.relation = some r ∧ a ∈ f.sources ∧ b ∈ f.targets := by
  constructor
  · rintro ⟨S, T, ⟨f, hf, ha, rfl, rfl⟩, hS, hT⟩
    obtain ⟨hk, hrel, -⟩ := Hyperedge.asserts?_eq_some.1 ha
    exact ⟨f, hf, hk, hrel, hS, hT⟩
  · rintro ⟨f, hf, hk, hrel, hS, hT⟩
    exact ⟨f.sources, f.targets, ⟨f, hf, Hyperedge.asserts?_eq_some.2 ⟨hk, hrel, hr⟩, rfl, rfl⟩, hS, hT⟩

/-- **Duality**: what lies below a class has the class above it. -/
theorem mem_subclasses_single_comm (hu : u ∈ g) (hv : v ∈ g) :
    v ∈ g.subclasses (.single u) "" .inverse ↔ u ∈ g.subclasses (.single v) "" .forward := by
  simp [mem_subclasses_iff, hu, hv, chain_inverse_iff]

/-- **Closing twice** adds nothing. -/
theorem subclasses_subclasses (g : Store) (roots : UidSet) (d : Direction) :
    g.subclasses (g.subclasses roots "" d) "" d = g.subclasses roots "" d := by
  refine UidSet.ext fun v => ?_
  constructor
  · intro h
    obtain ⟨hv, w, hw, -, hwv⟩ := mem_subclasses_iff.1 h
    obtain ⟨-, u, hu, hg, huw⟩ := mem_subclasses_iff.1 hw
    exact mem_subclasses_iff.2 ⟨hv, u, hu, hg, huw.trans hwv⟩
  · intro h
    exact mem_subclasses_iff.2 ⟨(mem_subclasses_iff.1 h).1, v, h, (mem_subclasses_iff.1 h).1, .refl⟩

end Store

namespace Ontology

/-- **Class closure.** Let a store be opened at any level and go through any history. The rounds over its
index then end for every set of roots, taken in any order, and every direction, after as many rounds as the
closure has members, and what they have met is the closure. The lattice below some classes holds exactly the
known uids from which a chain of facts of the kind `Vocabulary.isA` leads to a known one of these classes, each
step from a source to a target of one fact. The lattices below and above are dual to each other, and the lattice
of a lattice is that lattice. -/
theorem class_closure (level : Level) (g : Store) (history : List Action) :
    let o := (ofStore level g).since history
    let step : Uid → Uid → Prop := fun a b => ∃ f ∈ o.store.edges,
      f.kind = .fact ∧ f.relation = some Vocabulary.isA ∧ a ∈ f.sources ∧ b ∈ f.targets
    (∃ x : Indexed, x.Kept ∧ x.store = o.store) ∧
    (∀ x : Indexed, x.Kept → x.store = o.store →
      ∀ roots order d, order.Perm (o.store.known roots).toList → ∀ n,
        let s := (x.advance Vocabulary.isA d)^[n] (x.departure roots order)
        (s.waiting = [] ↔ (o.store.closure Vocabulary.isA d roots).size ≤ n) ∧
        (s.waiting = [] → ∀ label,
          o.store.filterByLabel s.met label = o.store.subclasses roots label d)) ∧
    (∀ roots v, v ∈ o.store.subclasses roots "" .inverse ↔
      v ∈ o.store ∧ ∃ u ∈ roots, u ∈ o.store ∧ ReflTransGen step v u) ∧
    (∀ u v, u ∈ o.store → v ∈ o.store →
      (v ∈ o.store.subclasses (.single u) "" .inverse ↔ u ∈ o.store.subclasses (.single v) "" .forward)) ∧
    ∀ roots d, o.store.subclasses (o.store.subclasses roots "" d) "" d = o.store.subclasses roots "" d := by
  intro o step
  have hstep : o.store.Leads Vocabulary.isA .forward = step := by
    funext a b
    exact propext (leads_forward_iff (by decide))
  refine ⟨Indexed.exists_kept (edits_opened level g history), ?_, fun roots v => ?_,
    fun u v => mem_subclasses_single_comm, subclasses_subclasses o.store⟩
  · intro x hx hstore roots order d hperm n s
    rw [← hstore] at hperm ⊢
    refine ⟨hx.faithful.waiting_eq_nil_iff hperm, fun hnil label => ?_⟩
    rw [hx.faithful.met_eq_closure hperm hnil]
    rfl
  · simp only [mem_subclasses_iff, chain_inverse_iff, hstep]

end Ontology

end DesignGraph
