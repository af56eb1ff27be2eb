import DesignGraph.Instance
import DesignGraph.Proofs.Relation.Reach

/-! # New instances stay apart

An instance is made under a new uid, and the only fact about it says what it realizes (`MadeInstance`).
`Apart g h` says that all facts added start at uids that `g` does not know, and unless they say what is
realized they also end at such. Seen from what was known before, nothing has changed then: the kinds
below a kind (`Apart.subrelations_eq`), the classes below a root (`Apart.allClasses_eq`), the classes of
an instance (`Apart.classesOf_eq`) and what a class holds (`Apart.within_iff`) are the same. -/

namespace DesignGraph

open Relation

namespace Store

/-! ### What a class holds -/

/-- `k` hangs on `o`: it is owned by `o` or a part of it. -/
def Holds (g : Store) (owning containing : UidSet) (o k : Uid) : Prop :=
  (∃ r ∈ owning, g.Leads r .forward o k) ∨ ∃ r ∈ containing, g.Leads r .forward k o

/-- `k` is `top` or hangs on it over any number of steps. -/
def Within (g : Store) (owning containing : UidSet) (top k : Uid) : Prop :=
  ReflTransGen (g.Holds owning containing) top k

/-- What the copy of a template realizes: the classes of the template, or the template itself if it is
the top one or no instance. -/
def realized (g : Store) (top k : Uid) : UidSet :=
  if k = top ∨ (g.classesOf k).isEmpty then .single k else g.classesOf k

variable {f g h : Store} {owning containing : UidSet} {r u v : Uid}

theorem Closed.holds (hg : g.Closed) {o k : Uid} (hk : g.Holds owning containing o k) : k ∈ g := by
  rcases hk with ⟨r, -, S, T, hf, -, hk⟩ | ⟨r, -, S, T, hf, hk, -⟩
  · exact (hg r S T hf).2 k hk
  · exact (hg r S T hf).1 k hk

theorem Closed.within (hg : g.Closed) {top k : Uid} (ht : top ∈ g)
    (hk : g.Within owning containing top k) : k ∈ g := by
  cases hk with
  | refl => exact ht
  | tail _ hk => exact hg.holds hk

theorem known_of_mem_realized {top k : Uid} (hk : k ∈ g) (hv : v ∈ g.realized top k) : v ∈ g := by
  unfold realized at hv
  split at hv
  · rw [UidSet.mem_single] at hv
    rwa [hv]
  · exact (mem_classesOf.1 hv).1

theorem realized_nonempty (g : Store) (top k : Uid) : ¬ (g.realized top k).isEmpty := by
  unfold realized
  split
  · exact UidSet.isEmpty_eq_false_iff.2 ⟨k, UidSet.mem_single.2 rfl⟩
  · rename_i hk
    exact fun he => hk (.inr he)

/-! ### Facts that start at new uids -/

/-- The facts of `h` that `g` does not have start at uids unknown to `g`, and unless they say what is
realized they end at such. -/
def Apart (g h : Store) : Prop :=
  Adds (fun r S T => S ≠ [] ∧ (∀ u ∈ S, u ∉ g) ∧ (r ≠ Vocabulary.instanceOf → ∀ u ∈ T, u ∉ g)) g h

theorem Apart.refl (g : Store) : Apart g g := Adds.refl _ g

theorem Apart.trans (hfg : Apart f g) (hgh : Apart g h) : Apart f h := by
  refine Adds.trans hfg (hgh.mono fun r S T hP => ?_)
  obtain ⟨hne, hS, hT⟩ := hP
  exact ⟨hne, fun u hu hf => hS u hu (hfg.extends.mem hf),
    fun hr u hu hf => hT hr u hu (hfg.extends.mem hf)⟩

/-- A fact between known uids is an old one. -/
theorem Apart.asserts (hgh : Apart g h) {S T : List Uid} (hf : h.Asserts r S T) (hS : ∀ u ∈ S, u ∈ g) :
    g.Asserts r S T := by
  refine (hgh.asserts_or hf).resolve_right ?_
  rintro ⟨hne, hnew, -⟩
  obtain ⟨u, hu⟩ := List.exists_mem_of_ne_nil S hne
  exact hnew u hu (hS u hu)

/-- A fact that has a known uid among its sources is an old one. -/
theorem Apart.leads_iff (hgh : Apart g h) {a b : Uid} (ha : a ∈ g) :
    h.Leads r .forward a b ↔ g.Leads r .forward a b := by
  refine ⟨?_, hgh.extends.leads⟩
  rintro ⟨S, T, hf, haS, hbT⟩
  refine ⟨S, T, (hgh.asserts_or hf).resolve_right fun hnew => ?_, haS, hbT⟩
  exact hnew.2.1 a haS ha

/-- A fact that has a known uid among its targets is an old one, unless it says what is realized. -/
theorem Apart.leads_iff_of_target (hgh : Apart g h) (hr : r ≠ Vocabulary.instanceOf) {a b : Uid}
    (hb : b ∈ g) : h.Leads r .forward a b ↔ g.Leads r .forward a b := by
  refine ⟨?_, hgh.extends.leads⟩
  rintro ⟨S, T, hf, haS, hbT⟩
  refine ⟨S, T, (hgh.asserts_or hf).resolve_right fun hnew => ?_, haS, hbT⟩
  exact hnew.2.2 hr b hbT hb

/-- A chain of steps from a known uid passes known uids only, if each step from such leads to such. -/
theorem chain_of_chain {R R' : Uid → Uid → Prop} (hR : ∀ a b, a ∈ g → R a b → R' a b ∧ b ∈ g)
    (hu : u ∈ g) (hc : ReflTransGen R u v) : ReflTransGen R' u v := by
  have : ReflTransGen R' u v ∧ v ∈ g := by
    induction hc with
    | refl => exact ⟨.refl, hu⟩
    | @tail a b _ hl ih =>
      obtain ⟨hl', hb⟩ := hR a b ih.2 hl
      exact ⟨ih.1.tail hl', hb⟩
  exact this.1

/-- Chains of steps that agree at known uids, and lead from these to such, agree. -/
theorem chain_iff {R R' : Uid → Uid → Prop} (hfar : ∀ a b, a ∈ g → R a b → b ∈ g)
    (hR : ∀ a b, a ∈ g → (R' a b ↔ R a b)) (hu : u ∈ g) :
    ReflTransGen R' u v ↔ ReflTransGen R u v := by
  constructor
  · refine chain_of_chain (fun a b ha hl => ?_) hu
    have hl' := (hR a b ha).1 hl
    exact ⟨hl', hfar a b ha hl'⟩
  · refine chain_of_chain (fun a b ha hl => ?_) hu
    exact ⟨(hR a b ha).2 hl, hfar a b ha hl⟩

theorem Apart.below_iff (hgh : Apart g h) (hg : g.Closed) (hr : r ≠ Vocabulary.instanceOf) (hu : u ∈ g) :
    ReflTransGen (h.Leads r .inverse) u v ↔ ReflTransGen (g.Leads r .inverse) u v := by
  refine chain_iff (fun a b _ => hg.far) (fun a b ha => ?_) hu
  rw [leads_inverse_iff, leads_inverse_iff]
  exact hgh.leads_iff_of_target hr ha

theorem Apart.subrelations_eq (hgh : Apart g h) (hg : g.Closed) {kinds : UidSet}
    (hk : ∀ k ∈ kinds, k ∈ g) : h.subrelations kinds = g.subrelations kinds := by
  refine UidSet.ext fun v => ?_
  rw [mem_subrelations, mem_subrelations]
  refine exists_congr fun k => and_congr_right fun hkk => ?_
  have hkg := hk k hkk
  rw [hgh.below_iff hg (by decide) hkg]
  exact and_congr_left fun _ => ⟨fun _ => hkg, fun _ => hgh.extends.mem hkg⟩

theorem Apart.allClasses_eq (hgh : Apart g h) (hg : g.Closed) {root : ClassRoot} (hr : root.uid ∈ g) :
    h.allClasses root = g.allClasses root := by
  refine UidSet.ext fun v => ⟨fun hv => ?_, allClasses_mono hgh.extends⟩
  obtain ⟨-, -, hc⟩ := mem_allClasses.1 hv
  rw [hgh.below_iff hg (by decide) hr] at hc
  refine mem_allClasses.2 ⟨?_, hr, hc⟩
  cases hc with
  | refl => exact hr
  | tail _ hl => exact hg.far hl

theorem Apart.classesOf_eq (hgh : Apart g h) (hg : g.Closed) (hio : Vocabulary.instanceOf ∈ g)
    (hu : u ∈ g) : h.classesOf u = g.classesOf u := by
  refine UidSet.ext fun v => ⟨fun hv => ?_, classesOf_mono hgh.extends⟩
  obtain ⟨-, k, hk, hl⟩ := mem_classesOf.1 hv
  rw [hgh.subrelations_eq hg (by simpa using hio)] at hk
  rw [hgh.leads_iff hu] at hl
  exact mem_classesOf.2 ⟨hg.far hl, k, hk, hl⟩

theorem Apart.realized_eq (hgh : Apart g h) (hg : g.Closed) (hio : Vocabulary.instanceOf ∈ g) (top : Uid)
    (hu : u ∈ g) : h.realized top u = g.realized top u := by
  rw [realized, realized, hgh.classesOf_eq hg hio hu]

theorem Apart.holds_iff (hgh : Apart g h) (hc : Vocabulary.instanceOf ∉ containing) {o k : Uid}
    (ho : o ∈ g) : h.Holds owning containing o k ↔ g.Holds owning containing o k := by
  refine or_congr (exists_congr fun r => and_congr_right fun _ => hgh.leads_iff ho)
    (exists_congr fun r => and_congr_right fun hr => hgh.leads_iff_of_target ?_ ho)
  rintro rfl
  exact hc hr

theorem Apart.within_iff (hgh : Apart g h) (hg : g.Closed) (hc : Vocabulary.instanceOf ∉ containing)
    {top k : Uid} (ht : top ∈ g) : h.Within owning containing top k ↔ g.Within owning containing top k :=
  chain_iff (fun _ _ _ => hg.holds) (fun _ _ => hgh.holds_iff hc) ht

/-! ### Making an instance -/

/-- `u` is a new instance that realizes the classes, and `h` is `g` with this instance. -/
structure MadeInstance (g : Store) (classes : UidSet) (label : String) (u : Uid) (h : Store) : Prop where
  fresh : u ∉ g
  stored : u ∈ h
  keeps : Keeps g h
  adds : Adds (fun r S T => (r = Vocabulary.instanceOf ∧ S = [u] ∧ T = classes.toList) ∧ h.Declares r) g h
  joined : g.Declares Vocabulary.instanceOf → h.Joins Vocabulary.instanceOf (.single u) classes
  /-- Without a label it is called after one of the classes. -/
  labelled : ∃ c ∈ classes, h.labelOf u = if label = "" then g.labelOf c else label

theorem instantiate_of_isEmpty {classes : UidSet} {label : String} (hc : (g.known classes).isEmpty) :
    g.instantiate classes label = (none, g) := by
  have : (g.known classes).toList.head? = none := by
    rw [List.head?_eq_none_iff]
    exact List.isEmpty_iff.1 hc
  rw [instantiate, this]

/-- **A new instance**: unless no class is known, one is made that realizes all the known ones. -/
theorem exists_madeInstance (g : Store) (classes : UidSet) (label : String)
    (hc : ¬ (g.known classes).isEmpty) :
    ∃ u h, g.instantiate classes label = (some u, h) ∧ MadeInstance g (g.known classes) label u h := by
  obtain ⟨c, hhead⟩ : ∃ c, (g.known classes).toList.head? = some c := by
    refine Option.ne_none_iff_exists'.1 fun hn => hc ?_
    exact List.isEmpty_iff.2 (List.head?_eq_none_iff.1 hn)
  have hcm : c ∈ g.known classes := List.mem_of_mem_head? hhead
  let u := (g.nextFree c).1
  let g₁ := (g.nextFree c).2
  let label' := if label = "" then g₁.labelOf c else label
  let g₂ := (g₁.create u label').2
  have hu : u ∉ g := nextFree_not_mem g c
  have hu₁ : u ∉ g₁ := hu
  have hne : u ≠ "" := nextFree_ne_empty g c
  have hk₁ : Keeps g g₁ := keeps_of_edges (l := []) (by simp [g₁])
  have hk₂ : Keeps g₁ g₂ := keeps_create g₁ u label'
  have hx₂ : Adds (fun _ _ _ => False) g g₂ := by
    obtain ⟨l, hl, hQ⟩ := adds_create (fun _ _ _ => False) g₁ u label'
    exact ⟨l, by simpa [g₁] using hl, hQ⟩
  have hk₃ := keeps_relateFrom g₂ Vocabulary.instanceOf (.single u) (g.known classes)
  have hu₂ : u ∈ g₂ := mem_create hne
  have hlabel : g₂.labelOf u = label' := labelOf_create hne hu₁ label'
  refine ⟨u, _, ?_, hu, hk₃.mem hu₂, (hk₁.trans hk₂).trans hk₃,
    (hx₂.mono fun _ _ _ => False.elim).trans ?_, fun hd => ?_, c, hcm, ?_⟩
  · rw [instantiate, hhead]
    rfl
  · have ha := adds_relateFrom g₂ Vocabulary.instanceOf (.single u) (g.known classes)
    refine ha.mono ?_
    rintro r S T ⟨⟨rfl, rfl, rfl⟩, -, -, hd⟩
    exact ⟨⟨rfl, rfl, rfl⟩, ha.extends.declares hd⟩
  · exact joins_relateFrom (hx₂.extends.declares hd) (by decide)
      (UidSet.isEmpty_eq_false_iff.2 ⟨u, UidSet.mem_single.2 rfl⟩) hc
  · exact (hk₃.labelOf hu₂).trans hlabel

end Store

end DesignGraph
