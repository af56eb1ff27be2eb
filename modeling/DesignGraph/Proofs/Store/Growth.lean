import DesignGraph.Relation.Assertion
import Mathlib.Data.List.Nodup
import Std.Data.String.ToNat

/-! # How a store grows

Every operation keeps the edges there are and appends new ones; at most a label is replaced. `Grows Q g h`
says that `h` is `g` with edges appended that satisfy `Q`, labels left aside, and `Adds P g h` that the
facts among these satisfy `P`. Both compose, so an operation is described once, by what it appends: what
is known and asserted in `g` is so in `h` (`Extends.mem`, `Extends.asserts`), and what is asserted in `h`
alone satisfies `P` (`Adds.asserts_or`).

* `nextFree_not_mem`: a uid handed out is new.
* `relateFrom_cases`: an assertion is refused, finds its fact, or appends it under a new uid.
* `adds_relateFrom`, `joins_relateFrom`: it adds at most that fact, and unless refused the fact is there.

All operations but one also leave the labels as they are (`Keeps`). -/

namespace DesignGraph

namespace Hyperedge

/-- The edge without its label, which is all that can change about it. -/
def bare (e : Hyperedge) : Hyperedge := { e with label := "" }

theorem asserts?_bare (e : Hyperedge) : e.bare.asserts? = e.asserts? := rfl

/-- Edges that are equal up to the label agree in everything else. -/
theorem eq_of_bare_eq {e e' : Hyperedge} (h : e.bare = e'.bare) :
    e.uid = e'.uid ∧ e.kind = e'.kind ∧ e.sources = e'.sources ∧ e.targets = e'.targets ∧
      e.asserts? = e'.asserts? := by
  simp only [bare, mk.injEq] at h
  obtain ⟨hu, -, hk, hs, ht, hr⟩ := h
  exact ⟨hu, hk, hs, ht, by rw [asserts?, asserts?, hk, hr]⟩

theorem asserts?_fact {u l r : Uid} {S T : List Uid} (hr : r ≠ "") :
    (fact u l S T r).asserts? = some r := by
  simp [fact, asserts?, hr]

theorem eq_of_asserts?_fact {u l r r' : Uid} {S T : List Uid}
    (h : (fact u l S T r).bare.asserts? = some r') :
    r' = r ∧ (fact u l S T r).bare.sources = S ∧ (fact u l S T r).bare.targets = T := by
  simp only [fact, bare, asserts?, if_true, Option.filter_some] at h
  split at h
  · exact ⟨(Option.some.inj h).symm, rfl, rfl⟩
  · simp at h

end Hyperedge

namespace UidSet

theorem nodup_toList (s : UidSet) : s.toList.Nodup := by
  refine s.ascending.imp ?_
  rintro u v h rfl
  exact String.lt_irrefl u h

@[simp] theorem ofList_toList (s : UidSet) : ofList s.toList = s := ext fun u => by simp

theorem isEmpty_eq_false_iff {s : UidSet} : ¬ s.isEmpty ↔ ∃ u, u ∈ s := by
  simp only [isEmpty, List.isEmpty_iff, mem_def]
  exact ⟨List.exists_mem_of_ne_nil _, fun ⟨u, hu⟩ h => by simp [h] at hu⟩

end UidSet

open Hyperedge

namespace Store

/-! ### Fresh uids -/

theorem numbered_inj {base : Uid} {m n : Nat} (h : numbered base m = numbered base n) : m = n :=
  Nat.repr_injective ((String.append_right_inj base).1 h)

theorem le_firstUnused (base : Uid) (taken : List Uid) (n : Nat) : n ≤ firstUnused base taken n := by
  fun_induction firstUnused base taken n with
  | case1 taken n h _ ih => omega
  | case2 => exact Nat.le_refl _

/-- A uid that was erased because it is taken is not met again: numbers only go up. -/
theorem numbered_firstUnused_not_mem (base : Uid) (taken : List Uid) (n : Nat) :
    numbered base (firstUnused base taken n) ∉ taken := by
  fun_induction firstUnused base taken n with
  | case1 taken n h _ ih =>
    intro hm
    have hle := le_firstUnused base (taken.erase (numbered base n)) (n + 1)
    have hne : numbered base (firstUnused base (taken.erase (numbered base n)) (n + 1)) ≠
        numbered base n := fun he => by
      have := numbered_inj he
      omega
    exact ih ((List.mem_erase_of_ne hne).2 hm)
  | case2 taken n h => exact h

theorem nextFree_not_mem (g : Store) (base : Uid) : (g.nextFree base).1 ∉ g :=
  numbered_firstUnused_not_mem base g.uidList _

theorem numbered_ne_empty (base : Uid) (n : Nat) : numbered base n ≠ "" := by
  intro h
  have := (String.append_eq_empty_iff.1 h).2
  exact absurd this (by simp)

theorem nextFree_ne_empty (g : Store) (base : Uid) : (g.nextFree base).1 ≠ "" :=
  numbered_ne_empty base _

@[simp] theorem edges_nextFree (g : Store) (base : Uid) : (g.nextFree base).2.edges = g.edges := rfl

/-! ### What a store says -/

/-- Some fact of the relation kind leads from exactly these sources to exactly these targets. -/
def Asserts (g : Store) (r : Uid) (S T : List Uid) : Prop :=
  ∃ e ∈ g.edges, e.asserts? = some r ∧ e.sources = S ∧ e.targets = T

instance (g : Store) (r : Uid) (S T : List Uid) : Decidable (g.Asserts r S T) :=
  inferInstanceAs (Decidable (∃ e ∈ g.edges, e.asserts? = some r ∧ e.sources = S ∧ e.targets = T))

/-- The uid is stored as a relation kind. -/
def Declares (g : Store) (r : Uid) : Prop := ∃ e ∈ g.edges, e.uid = r ∧ e.kind = .relation

theorem mem_of_get? {g : Store} {u : Uid} {e : Hyperedge} (h : g.get? u = some e) : e ∈ g.edges :=
  List.mem_of_find?_eq_some h

theorem get?_of_mem {g : Store} {e : Hyperedge} (h : e ∈ g.edges) : g.get? e.uid = some e := by
  obtain ⟨e', he'⟩ : ∃ e', g.get? e.uid = some e' := by
    refine Option.ne_none_iff_exists'.1 fun hn => ?_
    exact get?_eq_none_iff.1 hn (mem_def.2 ⟨e, h, rfl⟩)
  rw [he', List.inj_on_of_nodup_map g.distinct (mem_of_get? he') h (uid_of_get? he')]

theorem declares_iff {g : Store} {r : Uid} :
    g.Declares r ↔ ∃ e, g.get? r = some e ∧ e.kind = .relation := by
  constructor
  · rintro ⟨e, he, rfl, hk⟩
    exact ⟨e, get?_of_mem he, hk⟩
  · rintro ⟨e, he, hk⟩
    exact ⟨e, mem_of_get? he, uid_of_get? he, hk⟩

theorem Declares.mem {g : Store} {r : Uid} (h : g.Declares r) : r ∈ g := by
  obtain ⟨e, he, rfl, -⟩ := h
  exact mem_def.2 ⟨e, he, rfl⟩

/-! ### Growth -/

/-- `h` is `g` with edges appended that satisfy `Q`, where labels may differ. -/
def Grows (Q : Hyperedge → Prop) (g h : Store) : Prop :=
  ∃ added, h.edges.map bare = g.edges.map bare ++ added ∧ ∀ e ∈ added, Q e

/-- `h` holds all that `g` holds. -/
def Extends (g h : Store) : Prop := Grows (fun _ => True) g h

/-- `h` is `g` with edges appended, and every fact among them satisfies `P`, which is given the relation
kind, the sources and the targets. -/
def Adds (P : Uid → List Uid → List Uid → Prop) (g h : Store) : Prop :=
  Grows (fun e => ∀ r, e.asserts? = some r → P r e.sources e.targets) g h

variable {Q Q' : Hyperedge → Prop} {P P' : Uid → List Uid → List Uid → Prop} {f g h : Store}

theorem Grows.refl (Q : Hyperedge → Prop) (g : Store) : Grows Q g g := ⟨[], by simp⟩

theorem Grows.trans (h₁ : Grows Q f g) (h₂ : Grows Q g h) : Grows Q f h := by
  obtain ⟨l, hl, hQ⟩ := h₁
  obtain ⟨m, hm, hQ'⟩ := h₂
  refine ⟨l ++ m, by rw [hm, hl, List.append_assoc], fun e he => ?_⟩
  rcases List.mem_append.1 he with he | he
  · exact hQ e he
  · exact hQ' e he

theorem Grows.mono (h₁ : Grows Q g h) (hQ : ∀ e, Q e → Q' e) : Grows Q' g h := by
  obtain ⟨l, hl, h'⟩ := h₁
  exact ⟨l, hl, fun e he => hQ e (h' e he)⟩

theorem Grows.extends (h₁ : Grows Q g h) : Extends g h := h₁.mono fun _ _ => trivial

theorem Extends.trans (h₁ : Extends f g) (h₂ : Extends g h) : Extends f h := Grows.trans h₁ h₂

/-- An edge of the smaller store is an edge of the larger one, up to its label. -/
theorem Extends.edge (h₁ : Extends g h) {e : Hyperedge} (he : e ∈ g.edges) :
    ∃ e' ∈ h.edges, e'.bare = e.bare := by
  obtain ⟨l, hl, -⟩ := h₁
  have : e.bare ∈ h.edges.map bare := by
    rw [hl]
    exact List.mem_append_left _ (List.mem_map_of_mem he)
  exact List.mem_map.1 this

/-- An edge of the larger store is one of the smaller, or was appended. -/
theorem Grows.edge_or (h₁ : Grows Q g h) {e : Hyperedge} (he : e ∈ h.edges) :
    (∃ e' ∈ g.edges, e'.bare = e.bare) ∨ Q e.bare := by
  obtain ⟨l, hl, hQ⟩ := h₁
  have : e.bare ∈ g.edges.map bare ++ l := by
    rw [← hl]
    exact List.mem_map_of_mem he
  rcases List.mem_append.1 this with hg | hl
  · exact .inl (List.mem_map.1 hg)
  · exact .inr (hQ _ hl)

theorem Extends.mem (h₁ : Extends g h) {u : Uid} (hu : u ∈ g) : u ∈ h := by
  obtain ⟨e, he, rfl⟩ := mem_def.1 hu
  obtain ⟨e', he', hb⟩ := h₁.edge he
  exact mem_def.2 ⟨e', he', (eq_of_bare_eq hb).1⟩

theorem Extends.size_le (h₁ : Extends g h) : g.size ≤ h.size := by
  obtain ⟨l, hl, -⟩ := h₁
  have := congrArg List.length hl
  simp only [List.length_map, List.length_append] at this
  unfold size
  omega

theorem Extends.declares (h₁ : Extends g h) {r : Uid} (hr : g.Declares r) : h.Declares r := by
  obtain ⟨e, he, rfl, hk⟩ := hr
  obtain ⟨e', he', hb⟩ := h₁.edge he
  obtain ⟨hu, hk', -⟩ := eq_of_bare_eq hb
  exact ⟨e', he', hu, hk'.trans hk⟩

/-- A known uid is a relation kind later on only if it is one already. -/
theorem Extends.declares_iff (h₁ : Extends g h) {r : Uid} (hr : r ∈ g) : h.Declares r ↔ g.Declares r := by
  refine ⟨fun ⟨e, he, hu, hk⟩ => ?_, h₁.declares⟩
  obtain ⟨e₀, he₀, hu₀⟩ := mem_def.1 hr
  obtain ⟨e', he', hb⟩ := h₁.edge he₀
  obtain ⟨hu', hk', -⟩ := eq_of_bare_eq hb
  obtain rfl : e' = e := List.inj_on_of_nodup_map h.distinct he' he (hu'.trans (hu₀.trans hu.symm))
  exact ⟨e₀, he₀, hu₀, hk'.symm.trans hk⟩

theorem Extends.asserts (h₁ : Extends g h) {r : Uid} {S T : List Uid} (hf : g.Asserts r S T) :
    h.Asserts r S T := by
  obtain ⟨e, he, hr, rfl, rfl⟩ := hf
  obtain ⟨e', he', hb⟩ := h₁.edge he
  obtain ⟨-, -, hs, ht, ha⟩ := eq_of_bare_eq hb
  exact ⟨e', he', ha.trans hr, hs, ht⟩

theorem Adds.refl (P : Uid → List Uid → List Uid → Prop) (g : Store) : Adds P g g := Grows.refl _ g

theorem Adds.trans (h₁ : Adds P f g) (h₂ : Adds P g h) : Adds P f h := Grows.trans h₁ h₂

theorem Adds.mono (h₁ : Adds P g h) (hP : ∀ r S T, P r S T → P' r S T) : Adds P' g h :=
  Grows.mono h₁ fun _ h r hr => hP _ _ _ (h r hr)

theorem Adds.extends (h₁ : Adds P g h) : Extends g h := Grows.extends h₁

/-- What is asserted after a growth was asserted before, or is one of the facts added. -/
theorem Adds.asserts_or (h₁ : Adds P g h) {r : Uid} {S T : List Uid} (hf : h.Asserts r S T) :
    g.Asserts r S T ∨ P r S T := by
  obtain ⟨e, he, hr, rfl, rfl⟩ := hf
  rcases h₁.edge_or he with ⟨e', he', hb⟩ | hP
  · obtain ⟨-, -, hs, ht, ha⟩ := eq_of_bare_eq hb
    exact .inl ⟨e', he', ha.trans hr, hs, ht⟩
  · exact .inr (hP r hr)

/-! ### The primitive operations -/

theorem grows_insert (g : Store) (e : Hyperedge) :
    Grows (fun a => a = e.tidied.bare) g (g.insert e) := by
  by_cases h : e.uid ∈ g
  · rw [edges_insert_of_mem h]
    exact .refl _ g
  · exact ⟨[e.tidied.bare], by rw [edges_insert_of_not_mem h]; simp, by simp⟩

theorem mem_insert_self (g : Store) (e : Hyperedge) : e.uid ∈ g.insert e := by
  by_cases h : e.uid ∈ g
  · rwa [edges_insert_of_mem h]
  · refine mem_def.2 ⟨e.tidied, ?_, rfl⟩
    rw [edges_insert_of_not_mem h]
    simp

theorem mem_insert {g : Store} {e : Hyperedge} {u : Uid} : u ∈ g.insert e ↔ u ∈ g ∨ u = e.uid := by
  constructor
  · intro hu
    obtain ⟨a, ha, rfl⟩ := mem_def.1 hu
    rcases (grows_insert g e).edge_or ha with ⟨a', ha', hb⟩ | hb
    · exact .inl (mem_def.2 ⟨a', ha', (eq_of_bare_eq hb).1⟩)
    · exact .inr (eq_of_bare_eq hb).1
  · rintro (hu | rfl)
    · exact (grows_insert g e).extends.mem hu
    · exact mem_insert_self g e

theorem bare_relabel (u : Uid) (label : String) (e : Hyperedge) : (relabel u label e).bare = e.bare := by
  unfold relabel
  split <;> rfl

theorem grows_setLabel (Q : Hyperedge → Prop) (g : Store) (u : Uid) (label : String) :
    Grows Q g (g.setLabel u label) := by
  refine ⟨[], ?_, by simp⟩
  have hb : bare ∘ relabel u label = bare := funext (bare_relabel u label)
  simp [setLabel, hb]

theorem grows_create (g : Store) (u : Uid) (label : String) :
    Grows (fun a => a = (concept u "")) g (g.create u label).2 := by
  unfold create
  split
  · exact .refl _ g
  · exact (grows_insert g (concept u label)).mono fun _ h => h

theorem adds_create (P : Uid → List Uid → List Uid → Prop) (g : Store) (u : Uid) (label : String) :
    Adds P g (g.create u label).2 := by
  refine (grows_create g u label).mono ?_
  rintro e rfl r hr
  simp [concept, asserts?] at hr

theorem mem_create {g : Store} {u : Uid} {label : String} (hu : u ≠ "") : u ∈ (g.create u label).2 := by
  rw [create, if_neg hu]
  exact mem_insert_self g (concept u label)

/-! ### Edges put into a store -/

theorem edges_foldl_insert (es : List Hyperedge) : ∀ {g : Store},
    (∀ e ∈ es, e.uid ∉ g) → (es.map Hyperedge.uid).Nodup → (∀ e ∈ es, e.Tidy) →
      (es.foldl insert g).edges = g.edges ++ es := by
  induction es with
  | nil => simp
  | cons e es ih =>
    intro g hnew hdistinct htidy
    obtain ⟨he, hes⟩ := List.nodup_cons.1 hdistinct
    have hstored : (g.insert e).edges = g.edges ++ [e] := by
      rw [edges_insert_of_not_mem (hnew e (by simp)), tidied_eq_self (htidy e (by simp))]
    rw [List.foldl_cons, ih ?_ hes fun e he => htidy e (by simp [he]), hstored, List.append_assoc]
    · rfl
    · intro a ha hmem
      rw [mem_def, hstored] at hmem
      obtain ⟨b, hb, hba⟩ := hmem
      rcases List.mem_append.1 hb with hb | hb
      · exact hnew a (by simp [ha]) (mem_def.2 ⟨b, hb, hba⟩)
      · rw [List.mem_singleton.1 hb] at hba
        exact he (List.mem_map.2 ⟨a, ha, hba.symm⟩)

/-- Edges with distinct uids make a store of just these edges. -/
theorem edges_ofEdges {es : List Hyperedge} (hdistinct : (es.map Hyperedge.uid).Nodup)
    (htidy : ∀ e ∈ es, e.Tidy) : (ofEdges es).edges = es :=
  edges_foldl_insert es (fun _ _ h => nomatch h) hdistinct htidy

/-! ### Assertions -/

/-- Some fact of the relation kind has exactly the members of `S` as sources and those of `T` as targets. -/
def Joins (g : Store) (r : Uid) (S T : UidSet) : Prop :=
  ∃ S' T', g.Asserts r S' T' ∧ (∀ u, u ∈ S' ↔ u ∈ S) ∧ ∀ u, u ∈ T' ↔ u ∈ T

theorem Extends.joins (h₁ : Extends g h) {r : Uid} {S T : UidSet} (hf : g.Joins r S T) :
    h.Joins r S T := by
  obtain ⟨S', T', hf, hS, hT⟩ := hf
  exact ⟨S', T', h₁.asserts hf, hS, hT⟩

theorem Asserts.tidy {r : Uid} {S T : List Uid} (hf : g.Asserts r S T) : S.Nodup ∧ T.Nodup := by
  obtain ⟨e, he, -, rfl, rfl⟩ := hf
  exact g.tidy e he

theorem joins_single_iff {r a b : Uid} : g.Joins r (.single a) (.single b) ↔ g.Asserts r [a] [b] := by
  constructor
  · rintro ⟨S, T, hf, hS, hT⟩
    obtain ⟨hnS, hnT⟩ := hf.tidy
    have hS' : S = [a] := List.perm_singleton.1
      ((List.perm_ext_iff_of_nodup hnS (List.nodup_singleton a)).2 (by simpa using hS))
    have hT' : T = [b] := List.perm_singleton.1
      ((List.perm_ext_iff_of_nodup hnT (List.nodup_singleton b)).2 (by simpa using hT))
    rwa [hS', hT'] at hf
  · intro hf
    exact ⟨[a], [b], hf, by simp, by simp⟩

theorem mem_facts {r : Uid} {e : Hyperedge} :
    (r, e) ∈ g.facts ↔ e ∈ g.edges ∧ e.asserts? = some r := by
  simp only [facts, List.mem_filterMap, Option.map_eq_some_iff, Prod.mk.injEq]
  constructor
  · rintro ⟨e', he', r', hr', rfl, rfl⟩
    exact ⟨he', hr'⟩
  · rintro ⟨he, hr⟩
    exact ⟨e, he, r, hr, rfl, rfl⟩

theorem joins_of_findFact? {r u : Uid} {S T : UidSet} (hf : g.findFact? r S T = some u) :
    g.Joins r S T := by
  obtain ⟨⟨r', e⟩, hfind, -⟩ := Option.map_eq_some_iff.1 hf
  have hp := List.find?_some hfind
  simp only [joins, Bool.and_eq_true, beq_iff_eq, decide_eq_true_eq] at hp
  obtain ⟨rfl, hS, hT⟩ := hp
  obtain ⟨he, hr⟩ := mem_facts.1 (List.mem_of_find?_eq_some hfind)
  refine ⟨e.sources, e.targets, ⟨e, he, hr, rfl, rfl⟩, fun v => ?_, fun v => ?_⟩
  · rw [← hS, UidSet.mem_ofList]
  · rw [← hT, UidSet.mem_ofList]

/-- **What an assertion can do**: it is refused, finds the fact, or appends it under a new uid. -/
theorem relateFrom_cases (g : Store) (r : Uid) (S T : UidSet) :
    g.relateFrom r S T = (none, g) ∧ (S.isEmpty ∨ T.isEmpty ∨ ¬ g.Declares r) ∨
    ¬ S.isEmpty ∧ ¬ T.isEmpty ∧ g.Declares r ∧
      ((∃ u, g.relateFrom r S T = (some u, g) ∧ g.findFact? r S T = some u) ∨
        ∃ (k : Hyperedge) (u : Uid) (g' : Store),
          g.relateFrom r S T = (some u, g'.insert (fact u k.label S.toList T.toList r)) ∧
            g'.edges = g.edges ∧ u ∉ g ∧ u ≠ "") := by
  unfold relateFrom
  by_cases hST : S.isEmpty || T.isEmpty
  · rw [if_pos hST]
    exact .inl ⟨rfl, (Bool.or_eq_true_iff.1 hST).elim .inl (.inr ∘ .inl)⟩
  rw [if_neg hST]
  simp only [Bool.or_eq_true, not_or] at hST
  cases hk : g.get? r with
  | none =>
    refine .inl ⟨rfl, .inr (.inr fun hd => ?_)⟩
    exact get?_eq_none_iff.1 hk hd.mem
  | some k =>
    by_cases hrel : k.kind = .relation
    · simp only [hrel, ne_eq, not_true_eq_false, if_false]
      refine .inr ⟨hST.1, hST.2, declares_iff.2 ⟨k, hk, hrel⟩, ?_⟩
      cases hf : g.findFact? r S T with
      | some u => exact .inl ⟨u, rfl, rfl⟩
      | none =>
        refine .inr ⟨k, _, (g.nextFree k.uid).2, ?_, edges_nextFree g k.uid,
          nextFree_not_mem g k.uid, nextFree_ne_empty g k.uid⟩
        rw [← uid_of_get? hk]
        rfl
    · simp only [hrel, ne_eq, not_false_eq_true, if_true]
      refine .inl ⟨trivial, .inr (.inr fun hd => hrel ?_)⟩
      obtain ⟨k', hk', hrel'⟩ := declares_iff.1 hd
      rwa [← Option.some.inj (hk.symm.trans hk')] at hrel'

theorem relateFrom_of_not_declares {r : Uid} (hd : ¬ g.Declares r) (S T : UidSet) :
    g.relateFrom r S T = (none, g) := by
  rcases relateFrom_cases g r S T with ⟨h, -⟩ | ⟨-, -, hd', -⟩
  · exact h
  · exact absurd hd' hd

theorem edges_congr_mem {g g' : Store} (he : g'.edges = g.edges) {u : Uid} : u ∈ g' ↔ u ∈ g := by
  rw [mem_def, mem_def, he]

/-- An assertion adds at most the fact asserted, and that only if it is not refused. -/
theorem adds_relateFrom (g : Store) (r : Uid) (S T : UidSet) :
    Adds (fun r' S' T' => (r' = r ∧ S' = S.toList ∧ T' = T.toList) ∧
      ¬ S.isEmpty ∧ ¬ T.isEmpty ∧ g.Declares r) g (g.relateFrom r S T).2 := by
  rcases relateFrom_cases g r S T with ⟨h, -⟩ | ⟨hS, hT, hr, ⟨u, h, -⟩ | ⟨k, u, g', h, he, hu, -⟩⟩
  · rw [h]
    exact .refl _ g
  · rw [h]
    exact .refl _ g
  · rw [h]
    have hu' : (fact u k.label S.toList T.toList r).uid ∉ g' := fun hm => hu ((edges_congr_mem he).1 hm)
    refine ⟨[(fact u k.label S.toList T.toList r).tidied.bare], ?_, ?_⟩
    · rw [edges_insert_of_not_mem hu', he]
      simp
    · rw [tidied_eq_self ⟨S.nodup_toList, T.nodup_toList⟩]
      intro e hm r' hr'
      obtain rfl := List.mem_singleton.1 hm
      exact ⟨eq_of_asserts?_fact hr', hS, hT, hr⟩

/-- An assertion that is not refused leaves the fact in the store. -/
theorem joins_relateFrom {r : Uid} {S T : UidSet} (hr : g.Declares r) (hne : r ≠ "")
    (hS : ¬ S.isEmpty) (hT : ¬ T.isEmpty) : (g.relateFrom r S T).2.Joins r S T := by
  rcases relateFrom_cases g r S T with ⟨-, hn⟩ | ⟨-, -, -, ⟨u, h, hf⟩ | ⟨k, u, g', h, he, hu, -⟩⟩
  · exact absurd hn (by simp [hS, hT, hr])
  · rw [h]
    exact joins_of_findFact? hf
  · rw [h]
    have hu' : (fact u k.label S.toList T.toList r).uid ∉ g' := fun hm => hu ((edges_congr_mem he).1 hm)
    refine ⟨S.toList, T.toList, ⟨fact u k.label S.toList T.toList r, ?_, asserts?_fact hne, rfl, rfl⟩,
      by simp, by simp⟩
    rw [edges_insert_of_not_mem hu', tidied_eq_self ⟨S.nodup_toList, T.nodup_toList⟩]
    simp

theorem relateFrom_isSome {r : Uid} {S T : UidSet} (hr : g.Declares r) (hS : ¬ S.isEmpty) (hT : ¬ T.isEmpty) :
    ∃ f, (g.relateFrom r S T).1 = some f := by
  rcases relateFrom_cases g r S T with ⟨-, hn⟩ | ⟨-, -, -, ⟨f, h, -⟩ | ⟨k, f, g', h, -⟩⟩
  · exact absurd hn (by simp [hS, hT, hr])
  · exact ⟨f, by rw [h]⟩
  · exact ⟨f, by rw [h]⟩

theorem declares_of_relateFrom {r f : Uid} {S T : UidSet} (h : (g.relateFrom r S T).1 = some f) :
    g.Declares r ∧ ¬ S.isEmpty ∧ ¬ T.isEmpty := by
  rcases relateFrom_cases g r S T with ⟨h', -⟩ | ⟨hS, hT, hr, -⟩
  · rw [h'] at h
    cases h
  · exact ⟨hr, hS, hT⟩

theorem findFact?_of_joins {r : Uid} {S T : UidSet} (h : g.Joins r S T) : ∃ f, g.findFact? r S T = some f := by
  obtain ⟨S', T', ⟨e, he, hr, rfl, rfl⟩, hS, hT⟩ := h
  have hjoins : joins S T e := by
    have hS' : UidSet.ofList e.sources = S := UidSet.ext fun u => by rw [UidSet.mem_ofList, hS]
    have hT' : UidSet.ofList e.targets = T := UidSet.ext fun u => by rw [UidSet.mem_ofList, hT]
    simp [joins, hS', hT']
  obtain ⟨f, hf⟩ : ∃ f, g.facts.find? (fun f => f.1 == r && joins S T f.2) = some f := by
    refine Option.isSome_iff_exists.1 (List.find?_isSome.2 ⟨(r, e), mem_facts.2 ⟨he, hr⟩, ?_⟩)
    simp [hjoins]
  exact ⟨f.2.uid, by rw [findFact?, hf]; rfl⟩

/-- Asserting a stored fact again changes nothing, whatever its kind is declared as. -/
theorem store_relateFrom_of_joins {r : Uid} {S T : UidSet} (h : g.Joins r S T) : (g.relateFrom r S T).2 = g := by
  obtain ⟨f, hf⟩ := findFact?_of_joins h
  unfold relateFrom
  split
  · rfl
  · split
    · rfl
    · split
      · rfl
      · rw [hf]

/-- A fact that is stored is found. -/
theorem relateFrom_of_joins {r : Uid} {S T : UidSet} (hr : g.Declares r) (hS : ¬ S.isEmpty) (hT : ¬ T.isEmpty)
    (h : g.Joins r S T) : ∃ f, g.relateFrom r S T = (some f, g) := by
  obtain ⟨f, hf⟩ := findFact?_of_joins h
  obtain ⟨k, hk, hrel⟩ := declares_iff.1 hr
  refine ⟨f, ?_⟩
  simp [relateFrom, hS, hT, hk, hrel, hf]

/-- An assertion stores nothing but a numbered fact of its relation kind. -/
theorem mem_relateFrom {r u : Uid} {S T : UidSet} (hu : u ∈ (g.relateFrom r S T).2) :
    u ∈ g ∨ ∃ n, u = numbered r n := by
  unfold relateFrom at hu
  split at hu
  · exact .inl hu
  split at hu
  · exact .inl hu
  rename_i k hk
  split at hu
  · exact .inl hu
  split at hu
  · exact .inl hu
  rcases mem_insert.1 hu with hu | hu
  · exact .inl hu
  · refine .inr ⟨firstUnused k.uid g.uidList (g.issued k.uid + 1), ?_⟩
    rw [← uid_of_get? hk]
    exact hu

/-- A fact that asserts something names its relation kind. -/
theorem Asserts.ne_empty {r : Uid} {S T : List Uid} (hf : g.Asserts r S T) : r ≠ "" := by
  obtain ⟨e, -, hr, -, -⟩ := hf
  unfold asserts? at hr
  split at hr
  · rintro rfl
    have := (Option.filter_eq_some_iff.1 hr).2
    simp at this
  · simp at hr

/-! ### What keeps its label -/

/-- `h` keeps every edge of `g` as it is, its label included. -/
def Keeps (g h : Store) : Prop := ∀ u ∈ g, h.get? u = g.get? u

theorem keeps_of_edges {l : List Hyperedge} (he : h.edges = g.edges ++ l) : Keeps g h := by
  intro u hu
  obtain ⟨e, hg⟩ := Option.ne_none_iff_exists'.1 fun hn => get?_eq_none_iff.1 hn hu
  rw [hg]
  unfold get? at hg ⊢
  rw [he, List.find?_append, hg]
  rfl

theorem Keeps.refl (g : Store) : Keeps g g := fun _ _ => rfl

theorem Keeps.mem (hgh : Keeps g h) {u : Uid} (hu : u ∈ g) : u ∈ h := by
  by_contra hn
  rw [← get?_eq_none_iff, hgh u hu, get?_eq_none_iff] at hn
  exact hn hu

theorem Keeps.trans (hfg : Keeps f g) (hgh : Keeps g h) : Keeps f h := fun u hu => by
  rw [hgh u (hfg.mem hu), hfg u hu]

theorem Keeps.labelOf (hgh : Keeps g h) {u : Uid} (hu : u ∈ g) : h.labelOf u = g.labelOf u := by
  rw [Store.labelOf, Store.labelOf, hgh u hu]

theorem keeps_insert (g : Store) (e : Hyperedge) : Keeps g (g.insert e) := by
  by_cases h : e.uid ∈ g
  · rw [edges_insert_of_mem h]
    exact .refl g
  · exact keeps_of_edges (edges_insert_of_not_mem h)

theorem keeps_create (g : Store) (u : Uid) (label : String) : Keeps g (g.create u label).2 := by
  unfold create
  split
  · exact .refl g
  · exact keeps_insert g _

theorem keeps_relateFrom (g : Store) (r : Uid) (S T : UidSet) : Keeps g (g.relateFrom r S T).2 := by
  rcases relateFrom_cases g r S T with ⟨h, -⟩ | ⟨-, -, -, ⟨u, h, -⟩ | ⟨k, u, g', h, he, -, -⟩⟩
  · rw [h]
    exact .refl g
  · rw [h]
    exact .refl g
  · rw [h]
    exact (keeps_of_edges (l := []) (by simpa using he)).trans (keeps_insert g' _)

theorem labelOf_create {u : Uid} (hne : u ≠ "") (hu : u ∉ g) (label : String) :
    (g.create u label).2.labelOf u = label := by
  have he : (concept u label).tidied ∈ (g.insert (concept u label)).edges := by
    rw [edges_insert_of_not_mem hu]
    exact List.mem_append_right _ (List.mem_singleton_self _)
  have hget : (g.insert (concept u label)).get? u = some (concept u label).tidied := get?_of_mem he
  rw [create, if_neg hne, labelOf, hget]
  rfl

end Store

end DesignGraph
