import DesignGraph.Proofs.Instance.Apart
import Mathlib.Data.List.Perm.Subperm

/-! # The walk of a deep copy

The walk copies the structure of `top` from the store `g` it starts at, into a store that grows while it
is read. `Walk` is what holds between any two of its steps: the copies are new uids, one for each template,
the templates with a copy are those expanded and those queued, and every fact added either says what a
copy realizes or joins two copies as their templates are joined in `g` (`StructureFact`). Such facts stay
apart from `g`, so what the walk reads off the grown store about a template is what `g` says.

* `copyChild_ok`, `attach_ok`, `expand_ok`: no step fails, and each keeps the invariant.
* `Walk.step`: the next template of the queue is expanded.
* `run_ok`: the walk ends before it is cut off, and then every template is expanded.
* `Walk.mem_keys_iff`: the templates are what lies within the structure of `top`. -/

namespace DesignGraph

open Store

namespace Copying

/-- The source and the target of the fact that joins an owner at this end to its child. -/
def End.ends (e : End) (owner child : Uid) : Uid × Uid :=
  match e with
  | source => (owner, child)
  | target => (child, owner)

/-- The kinds of the facts followed from this end. -/
def End.kinds (owning containing : UidSet) : End → UidSet
  | source => owning
  | target => containing

/-- A fact of the kind joins `o`, which stands at this end, to `k`. -/
def End.Joins (e : End) (g : Store) (r o k : Uid) : Prop :=
  g.Leads r .forward (e.ends o k).1 (e.ends o k).2

/-- The facts of a copied structure, where `pair` gives the templates with their copies. -/
inductive StructureFact (g : Store) (owning containing : UidSet) (top : Uid) (pair : Uid → Uid → Prop) :
    Uid → List Uid → List Uid → Prop
  | realizes {k k' : Uid} (hk : pair k k') :
    StructureFact g owning containing top pair Vocabulary.instanceOf [k'] (g.realized top k).toList
  | holds {r o o' k k' : Uid} (ho : pair o o') (hk : pair k k') (hr : r ∈ owning ∨ r ∈ containing)
      (hl : g.Leads r .forward o k) :
    StructureFact g owning containing top pair r [o'] [k']

theorem StructureFact.mono {g : Store} {owning containing : UidSet} {top r : Uid} {S T : List Uid}
    {pair pair' : Uid → Uid → Prop} (hp : ∀ k k', pair k k' → pair' k k')
    (hf : StructureFact g owning containing top pair r S T) :
    StructureFact g owning containing top pair' r S T := by
  cases hf with
  | realizes hk => exact .realizes (hp _ _ hk)
  | holds ho hk hr hl => exact .holds (hp _ _ ho) (hp _ _ hk) hr hl

/-- What holds between the steps of the walk over the structure of `top` in `g`, when the templates `done`
have been expanded. -/
structure Walk (g : Store) (owning containing : UidSet) (top : Uid) (done : List Uid) (c : Copying) :
    Prop where
  keeps : Keeps g c.store
  adds : Adds (StructureFact g owning containing top fun k k' => (k, k') ∈ c.copies) g c.store
  started : top ∈ c.copies.map Prod.fst
  queued : (c.copies.map Prod.fst).Perm (done ++ c.todo)
  distinct : (c.copies.map Prod.fst).Nodup
  injective : (c.copies.map Prod.snd).Nodup
  within : ∀ p ∈ c.copies, p.1 ∈ g ∧ g.Within owning containing top p.1
  fresh : ∀ p ∈ c.copies, p.2 ∉ g ∧ p.2 ∈ c.store
  joined : g.Declares Vocabulary.instanceOf → ∀ p ∈ c.copies,
    c.store.Joins Vocabulary.instanceOf (.single p.2) (g.realized top p.1)
  labelled : ∀ p ∈ c.copies, ∃ x ∈ g.realized top p.1,
    c.store.labelOf p.2 = if g.labelOf p.1 = "" then g.labelOf x else g.labelOf p.1

/-- A later state of a walk: no copy is lost, and the store has grown. -/
def Later (c c' : Copying) : Prop := (∀ p ∈ c.copies, p ∈ c'.copies) ∧ Extends c.store c'.store

theorem Later.refl (c : Copying) : Later c c := ⟨fun _ hp => hp, Grows.refl _ _⟩

theorem Later.trans {a b c : Copying} (hab : Later a b) (hbc : Later b c) : Later a c :=
  ⟨fun p hp => hbc.1 p (hab.1 p hp), hab.2.trans hbc.2⟩

/-- The child `k` of `o` has a copy, joined to the copy of `o` as `k` is joined to `o`. -/
def Attached (g : Store) (e : End) (r o k : Uid) (c : Copying) : Prop :=
  ∃ o' k', (o, o') ∈ c.copies ∧ (k, k') ∈ c.copies ∧
    (g.Declares r → c.store.Asserts r [(e.ends o' k').1] [(e.ends o' k').2])

theorem Attached.later {g : Store} {e : End} {r o k : Uid} {c c' : Copying} (hc : Later c c')
    (ha : Attached g e r o k c) : Attached g e r o k c' := by
  obtain ⟨o', k', ho, hk, hf⟩ := ha
  exact ⟨o', k', hc.1 _ ho, hc.1 _ hk, fun hr => hc.2.asserts (hf hr)⟩

/-! ### Look-up of copies -/

theorem mem_of_lookup {l : List (Uid × Uid)} {k k' : Uid} (h : l.lookup k = some k') : (k, k') ∈ l := by
  obtain ⟨l₁, l₂, rfl, -⟩ := List.lookup_eq_some_iff.1 h
  simp

theorem lookup_of_mem {l : List (Uid × Uid)} (hl : (l.map Prod.fst).Nodup) {k k' : Uid}
    (h : (k, k') ∈ l) : l.lookup k = some k' := by
  obtain ⟨b, hb⟩ : ∃ b, l.lookup k = some b := by
    refine Option.isSome_iff_exists.1 (List.lookup_isSome_iff.2 ⟨(k, k'), h, by simp⟩)
  have := List.inj_on_of_nodup_map hl (mem_of_lookup hb) h rfl
  rw [hb, (Prod.mk.inj this).2]

/-! ### Folds that do not fail -/

/-- A fold whose steps succeed, keep `I` and lead to later states, does so itself; what a step establishes
for its element still holds at the end. -/
theorem foldlM_ok {σ α ε : Type} {f : σ → α → Except ε σ} {I : σ → Prop} {R : σ → σ → Prop}
    {J : α → σ → Prop} (hrefl : ∀ s, R s s) (htrans : ∀ {s t u}, R s t → R t u → R s u)
    (hJ : ∀ {s t a}, R s t → J a s → J a t) : ∀ {l : List α} {s : σ},
    (∀ a ∈ l, ∀ s, I s → ∃ t, f s a = .ok t ∧ I t ∧ R s t ∧ J a t) → I s →
      ∃ t, l.foldlM f s = .ok t ∧ I t ∧ R s t ∧ ∀ a ∈ l, J a t := by
  intro l
  induction l with
  | nil =>
    intro s _ hs
    exact ⟨s, rfl, hs, hrefl s, by simp⟩
  | cons a l ih =>
    intro s hstep hs
    obtain ⟨t, hf, ht, hst, ha⟩ := hstep a (by simp) s hs
    obtain ⟨u, hfold, hu, htu, hl⟩ := ih (fun b hb => hstep b (by simp [hb])) ht
    refine ⟨u, ?_, hu, htrans hst htu, ?_⟩
    · rw [List.foldlM_cons, hf]
      exact hfold
    · intro b hb
      rcases List.mem_cons.1 hb with rfl | hb
      · exact hJ htu ha
      · exact hl b hb

/-! ### The facts of a kind at an end -/

theorem exists_link_iff {g : Store} {kinds : UidSet} {o k r : Uid} {e : End} :
    (∃ l, (r, l) ∈ links g kinds o e ∧ k ∈ l) ↔ r ∈ kinds ∧ e.Joins g r o k := by
  cases e with
  | source =>
    simp only [links, List.mem_map, List.mem_filter, Bool.and_eq_true, decide_eq_true_eq,
      List.contains_iff_mem, Prod.exists, Prod.mk.injEq, End.Joins, End.ends]
    constructor
    · rintro ⟨l, ⟨r', e, ⟨hf, hr, ho⟩, rfl, rfl⟩, hk⟩
      obtain ⟨he, ha⟩ := mem_facts.1 hf
      exact ⟨hr, e.sources, e.targets, ⟨e, he, ha, rfl, rfl⟩, ho, hk⟩
    · rintro ⟨hr, S, T, ⟨e, he, ha, rfl, rfl⟩, ho, hk⟩
      exact ⟨e.targets, ⟨r, e, ⟨mem_facts.2 ⟨he, ha⟩, hr, ho⟩, rfl, rfl⟩, hk⟩
  | target =>
    simp only [links, List.mem_map, List.mem_filter, Bool.and_eq_true, decide_eq_true_eq,
      List.contains_iff_mem, Prod.exists, Prod.mk.injEq, End.Joins, End.ends]
    constructor
    · rintro ⟨l, ⟨r', e, ⟨hf, hr, ho⟩, rfl, rfl⟩, hk⟩
      obtain ⟨he, ha⟩ := mem_facts.1 hf
      exact ⟨hr, e.sources, e.targets, ⟨e, he, ha, rfl, rfl⟩, hk, ho⟩
    · rintro ⟨hr, S, T, ⟨e, he, ha, rfl, rfl⟩, hk, ho⟩
      exact ⟨e.sources, ⟨r, e, ⟨mem_facts.2 ⟨he, ha⟩, hr, ho⟩, rfl, rfl⟩, hk⟩

variable {g : Store} {owning containing : UidSet} {top : Uid} {done : List Uid} {c : Copying}

theorem End.Joins.holds {e : End} {r o k : Uid} (hr : r ∈ e.kinds owning containing)
    (hj : e.Joins g r o k) : g.Holds owning containing o k := by
  cases e with
  | source => exact .inl ⟨r, hr, hj⟩
  | target => exact .inr ⟨r, hr, hj⟩

theorem End.joins_iff {h : Store} (hgh : Apart g h) (hc : Vocabulary.instanceOf ∉ containing) {e : End}
    {r o k : Uid} (hr : r ∈ e.kinds owning containing) (ho : o ∈ g) :
    e.Joins h r o k ↔ e.Joins g r o k := by
  cases e with
  | source => exact hgh.leads_iff ho
  | target =>
    refine hgh.leads_iff_of_target ?_ ho
    rintro rfl
    exact hc hr

namespace Walk

theorem apart (hw : Walk g owning containing top done c) : Apart g c.store := by
  refine hw.adds.mono fun r S T hf => ?_
  cases hf with
  | realizes hk =>
    exact ⟨by simp, by simpa using (hw.fresh _ hk).1, fun hr => absurd rfl hr⟩
  | holds ho hk _ _ =>
    exact ⟨by simp, by simpa using (hw.fresh _ ho).1, fun _ => by simpa using (hw.fresh _ hk).1⟩

theorem exists_copy (hw : Walk g owning containing top done c) {k : Uid}
    (hk : k ∈ done ++ c.todo) : ∃ k', (k, k') ∈ c.copies := by
  obtain ⟨⟨_, k'⟩, hp, rfl⟩ := List.mem_map.1 (hw.queued.mem_iff.2 hk)
  exact ⟨k', hp⟩

/-- There are at most as many templates as edges. -/
theorem length_le (hw : Walk g owning containing top done c) :
    done.length + c.todo.length ≤ g.size := by
  have hsub : c.copies.map Prod.fst ⊆ g.uidList := by
    intro k hk
    obtain ⟨p, hp, rfl⟩ := List.mem_map.1 hk
    exact (hw.within p hp).1
  have hle := (List.subperm_of_subset hw.distinct hsub).length_le
  have hlen := hw.queued.length_eq
  rw [List.length_append] at hlen
  have : g.uidList.length = g.size := List.length_map _
  omega

/-- The walk goes on in a store with one more fact of the copied structure. -/
theorem addFact (hw : Walk g owning containing top done c) {h : Store} (hk : Keeps c.store h)
    (ha : Adds (StructureFact g owning containing top fun k k' => (k, k') ∈ c.copies) c.store h) :
    Walk g owning containing top done { c with store := h } where
  keeps := hw.keeps.trans hk
  adds := hw.adds.trans ha
  started := hw.started
  queued := hw.queued
  distinct := hw.distinct
  injective := hw.injective
  within := hw.within
  fresh p hp := ⟨(hw.fresh p hp).1, ha.extends.mem (hw.fresh p hp).2⟩
  joined hd p hp := ha.extends.joins (hw.joined hd p hp)
  labelled p hp := by
    obtain ⟨x, hx, hl⟩ := hw.labelled p hp
    exact ⟨x, hx, (hk.labelOf (hw.fresh p hp).2).trans hl⟩

/-- The walk goes on with the copy of one more template, which is queued. -/
theorem addCopy (hw : Walk g owning containing top done c) {h : Store} {k k' : Uid} (hk : k ∈ g)
    (hwk : g.Within owning containing top k) (hnew : k ∉ c.copies.map Prod.fst)
    (hm : MadeInstance c.store (g.realized top k) (c.store.labelOf k) k' h) :
    Walk g owning containing top done ⟨h, (k, k') :: c.copies, c.todo ++ [k]⟩ where
  keeps := hw.keeps.trans hm.keeps
  adds := by
    refine (hw.adds.mono fun r S T hf => hf.mono fun _ _ => List.mem_cons_of_mem _).trans
      (hm.adds.mono ?_)
    rintro r S T ⟨⟨rfl, rfl, rfl⟩, -⟩
    exact .realizes (by simp)
  started := by simp [hw.started]
  queued := by
    rw [List.map_cons, ← List.append_assoc]
    exact (hw.queued.cons k).trans (List.perm_append_singleton k _).symm
  distinct := List.nodup_cons.2 ⟨hnew, hw.distinct⟩
  injective := by
    refine List.nodup_cons.2 ⟨fun hv => ?_, hw.injective⟩
    obtain ⟨p, hp, hpk⟩ := List.mem_map.1 hv
    have hpm := (hw.fresh p hp).2
    rw [hpk] at hpm
    exact hm.fresh hpm
  within := by
    intro p hp
    rcases List.mem_cons.1 hp with rfl | hp
    · exact ⟨hk, hwk⟩
    · exact hw.within p hp
  fresh := by
    intro p hp
    rcases List.mem_cons.1 hp with rfl | hp
    · exact ⟨fun hgk => hm.fresh (hw.keeps.mem hgk), hm.stored⟩
    · exact ⟨(hw.fresh p hp).1, hm.keeps.mem (hw.fresh p hp).2⟩
  joined := by
    intro hd p hp
    rcases List.mem_cons.1 hp with rfl | hp
    · exact hm.joined (hw.adds.extends.declares hd)
    · exact hm.adds.extends.joins (hw.joined hd p hp)
  labelled := by
    intro p hp
    rcases List.mem_cons.1 hp with rfl | hp
    · obtain ⟨x, hx, hlab⟩ := hm.labelled
      refine ⟨x, hx, ?_⟩
      rw [hlab, hw.keeps.labelOf hk, hw.keeps.labelOf (known_of_mem_realized hk hx)]
    · obtain ⟨x, hx, hlab⟩ := hw.labelled p hp
      exact ⟨x, hx, (hm.keeps.labelOf (hw.fresh p hp).2).trans hlab⟩

end Walk

/-! ### The steps of the walk -/

theorem attach_eq (e : End) (owner r child : Uid) (c : Copying) : attach owner e r c child =
    match c.copyChild child with
    | none => .error c.store
    | some (copy, c) => .ok { c with store := (c.store.relateFrom r
        (.single (e.ends owner copy).1) (.single (e.ends owner copy).2)).2 } := by
  cases e <;> rfl

theorem known_eq {s : UidSet} (hs : ∀ u ∈ s, u ∈ g) : g.known s = s := by
  refine UidSet.ext fun u => ?_
  rw [mem_known]
  exact ⟨fun h => h.1, fun h => ⟨h, hs u h⟩⟩

section Steps

variable (hg : g.Closed) (hio : Vocabulary.instanceOf ∈ g) (hc : Vocabulary.instanceOf ∉ containing)

include hg hio in
/-- **One more copy**: a child that lies within the structure gets a copy, if it has none. -/
theorem copyChild_ok (hw : Walk g owning containing top done c) {k : Uid} (hk : k ∈ g)
    (hwk : g.Within owning containing top k) :
    ∃ k' c', c.copyChild k = some (k', c') ∧ Walk g owning containing top done c' ∧
      (k, k') ∈ c'.copies ∧ Later c c' := by
  cases hl : c.copies.lookup k with
  | some k' => exact ⟨k', c, by rw [copyChild, hl], hw, mem_of_lookup hl, .refl c⟩
  | none =>
    have hnew : k ∉ c.copies.map Prod.fst := by
      intro hm
      obtain ⟨p, hp, rfl⟩ := List.mem_map.1 hm
      rw [lookup_of_mem hw.distinct hp] at hl
      cases hl
    have hne : k ≠ top := fun he => hnew (he ▸ hw.started)
    have hclasses : c.store.classesOf k = g.classesOf k := hw.apart.classesOf_eq hg hio hk
    have hreal : (if (c.store.classesOf k).isEmpty then UidSet.single k else c.store.classesOf k) =
        g.realized top k := by
      rw [hclasses, realized]
      simp [hne]
    have hmem : ∀ u ∈ g.realized top k, u ∈ c.store := fun u hu =>
      hw.keeps.mem (known_of_mem_realized hk hu)
    have hknown : c.store.known (g.realized top k) = g.realized top k := known_eq hmem
    obtain ⟨k', h, hi, hm⟩ := exists_madeInstance c.store (g.realized top k) (c.store.labelOf k)
      (by rw [hknown]; exact realized_nonempty g top k)
    rw [hknown] at hm
    refine ⟨k', ⟨h, (k, k') :: c.copies, c.todo ++ [k]⟩, ?_, hw.addCopy hk hwk hnew hm, by simp,
      fun p hp => List.mem_cons_of_mem _ hp, hm.adds.extends⟩
    simp only [copyChild, hl, hreal, hi]

include hg hio in
theorem attach_ok (hw : Walk g owning containing top done c) {e : End} {r o o' k : Uid}
    (ho : (o, o') ∈ c.copies) (hr : r ∈ e.kinds owning containing) (hj : e.Joins g r o k) :
    ∃ c', attach o' e r c k = .ok c' ∧ Walk g owning containing top done c' ∧ Later c c' ∧
      Attached g e r o k c' := by
  have hholds := hj.holds hr
  obtain ⟨k', c₁, hcopy, hw₁, hk₁, hlater⟩ :=
    copyChild_ok hg hio hw (hg.holds hholds) ((hw.within _ ho).2.tail hholds)
  have ho₁ := hlater.1 _ ho
  let p := e.ends o' k'
  have hfact : StructureFact g owning containing top (fun k k' => (k, k') ∈ c₁.copies) r [p.1] [p.2] := by
    cases e with
    | source => exact .holds ho₁ hk₁ (.inl hr) hj
    | target => exact .holds hk₁ ho₁ (.inr hr) hj
  have ha : Adds (StructureFact g owning containing top fun k k' => (k, k') ∈ c₁.copies) c₁.store
      (c₁.store.relateFrom r (.single p.1) (.single p.2)).2 := by
    refine (adds_relateFrom c₁.store r (.single p.1) (.single p.2)).mono ?_
    rintro r' S T ⟨⟨rfl, rfl, rfl⟩, -⟩
    exact hfact
  refine ⟨_, ?_, hw₁.addFact (keeps_relateFrom _ _ _ _) ha,
    hlater.trans ⟨fun _ hq => hq, ha.extends⟩, o', k', ho₁, hk₁, fun hd => ?_⟩
  · rw [attach_eq, hcopy]
  · obtain ⟨S, T, hf, -⟩ := hj
    exact joins_single_iff.1 (joins_relateFrom (hw₁.adds.extends.declares hd) hf.ne_empty
      (UidSet.isEmpty_eq_false_iff.2 ⟨_, UidSet.mem_single.2 rfl⟩)
      (UidSet.isEmpty_eq_false_iff.2 ⟨_, UidSet.mem_single.2 rfl⟩))

include hg hio hc in
theorem attachAll_ok (hw : Walk g owning containing top done c) (e : End) {o o' : Uid}
    (ho : (o, o') ∈ c.copies) :
    ∃ c', attachAll (e.kinds owning containing) o o' e c = .ok c' ∧
      Walk g owning containing top done c' ∧ Later c c' ∧
      ∀ r ∈ e.kinds owning containing, ∀ k, e.Joins g r o k → Attached g e r o k c' := by
  have hog : o ∈ g := (hw.within _ ho).1
  -- what is listed in the grown store is what `g` joins to `o`
  have hlink : ∀ r l, (r, l) ∈ links c.store (e.kinds owning containing) o e → ∀ k ∈ l,
      r ∈ e.kinds owning containing ∧ e.Joins g r o k := by
    intro r l hl k hk
    obtain ⟨hr, hj⟩ := exists_link_iff.1 ⟨l, hl, hk⟩
    exact ⟨hr, (End.joins_iff hw.apart hc hr hog).1 hj⟩
  have hstep : ∀ link ∈ links c.store (e.kinds owning containing) o e, ∀ s,
      (Walk g owning containing top done s ∧ (o, o') ∈ s.copies) →
      ∃ t, link.2.foldlM (attach o' e link.1) s = .ok t ∧
        (Walk g owning containing top done t ∧ (o, o') ∈ t.copies) ∧ Later s t ∧
        ∀ k ∈ link.2, Attached g e link.1 o k t := by
    rintro ⟨r, l⟩ hl s hs
    refine foldlM_ok Later.refl Later.trans (fun h ha => ha.later h) ?_ hs
    rintro k hk s ⟨hws, hos⟩
    obtain ⟨hr, hj⟩ := hlink r l hl k hk
    obtain ⟨t, hat, hwt, hst, hatt⟩ := attach_ok hg hio hws hos hr hj
    exact ⟨t, hat, ⟨hwt, hst.1 _ hos⟩, hst, hatt⟩
  obtain ⟨c', hfold, ⟨hw', -⟩, hlater, hall⟩ := foldlM_ok
    (J := fun (link : Uid × List Uid) c => ∀ k ∈ link.2, Attached g e link.1 o k c)
    Later.refl Later.trans (fun h ha k hk => (ha k hk).later h) hstep ⟨hw, ho⟩
  refine ⟨c', hfold, hw', hlater, fun r hr k hj => ?_⟩
  obtain ⟨l, hl, hk⟩ := exists_link_iff.2 ⟨hr, (End.joins_iff hw.apart hc hr hog).2 hj⟩
  exact hall (r, l) hl k hk

/-- All children of `o` have copies that are joined to the copy of `o`. -/
def Expanded (g : Store) (owning containing : UidSet) (o : Uid) (c : Copying) : Prop :=
  ∀ e : End, ∀ r ∈ e.kinds owning containing, ∀ k, e.Joins g r o k → Attached g e r o k c

theorem Expanded.later {o : Uid} {c c' : Copying} (hl : Later c c')
    (he : Expanded g owning containing o c) : Expanded g owning containing o c' :=
  fun e r hr k hj => (he e r hr k hj).later hl

include hg hio hc in
theorem expand_ok (hw : Walk g owning containing top done c) {o o' : Uid} (ho : (o, o') ∈ c.copies) :
    ∃ c', expand owning containing o c = .ok c' ∧ Walk g owning containing top done c' ∧ Later c c' ∧
      Expanded g owning containing o c' := by
  obtain ⟨c₁, h₁, hw₁, hl₁, hs⟩ := attachAll_ok hg hio hc hw .source ho
  obtain ⟨c₂, h₂, hw₂, hl₂, ht⟩ := attachAll_ok hg hio hc hw₁ .target (hl₁.1 _ ho)
  refine ⟨c₂, ?_, hw₂, hl₁.trans hl₂, fun e r hr k hj => ?_⟩
  · have hown : (c.copies.lookup o).getD o = o' := by rw [lookup_of_mem hw.distinct ho]; rfl
    simp only [expand, hown]
    change Except.bind (attachAll (End.source.kinds owning containing) o o' .source c) _ = _
    rw [h₁]
    exact h₂
  · cases e with
    | source => exact (hs r hr k hj).later hl₂
    | target => exact ht r hr k hj

include hg hio hc in
/-- **One step of the walk**: the template taken from the queue counts as done from here on, and its
children have copies. -/
theorem Walk.step (hw : Walk g owning containing top done c) {o : Uid} {todo : List Uid}
    (htodo : c.todo = o :: todo) :
    ∃ c', expand owning containing o { c with todo } = .ok c' ∧
      Walk g owning containing top (done ++ [o]) c' ∧ Later c c' ∧ Expanded g owning containing o c' := by
  have hw₀ : Walk g owning containing top (done ++ [o]) { c with todo } := by
    have hq := hw.queued
    rw [htodo] at hq
    exact { hw with queued := by simpa using hq }
  obtain ⟨o', ho⟩ := hw.exists_copy (k := o) (by simp [htodo])
  obtain ⟨c', hexp, hw', hlater, ho'⟩ := expand_ok hg hio hc hw₀ ho
  exact ⟨c', hexp, hw', hlater, ho'⟩

include hg hio hc in
/-- **The walk ends**: it is never cut off, and leaves nothing unexpanded. -/
theorem run_ok : ∀ {n : Nat} {done : List Uid} {c : Copying}, Walk g owning containing top done c →
    g.size ≤ n + done.length → (∀ o ∈ done, Expanded g owning containing o c) →
      ∃ c' done', run owning containing n c = .ok c' ∧ Walk g owning containing top done' c' ∧
        c'.todo = [] ∧ Later c c' ∧ ∀ o ∈ done', Expanded g owning containing o c' := by
  intro n
  -- each step expands one template more, and there are at most `g.size` of them
  induction n with
  | zero =>
    intro done c hw hn hdone
    have hle := hw.length_le
    have hnil : c.todo = [] := List.length_eq_zero_iff.1 (by omega)
    exact ⟨c, done, by rw [run, hnil], hw, hnil, .refl c, hdone⟩
  | succ n ih =>
    intro done c hw hn hdone
    cases htodo : c.todo with
    | nil => exact ⟨c, done, by rw [run, htodo], hw, htodo, .refl c, hdone⟩
    | cons o todo =>
      obtain ⟨c₁, hexp, hw₁, hl, ho₁⟩ := hw.step hg hio hc htodo
      obtain ⟨c₂, done₂, hrun, hw₂, hnil, hl₂, hdone₂⟩ := ih hw₁ (by simp; omega) (by
        intro k hk
        rcases List.mem_append.1 hk with hk | hk
        · exact (hdone k hk).later hl
        · rw [List.mem_singleton.1 hk]
          exact ho₁)
      refine ⟨c₂, done₂, ?_, hw₂, hnil, hl.trans hl₂, hdone₂⟩
      rw [run, htodo]
      simp only [hexp]
      exact hrun

end Steps

/-- When nothing is left to expand, the templates are what lies within the structure of `top`. -/
theorem Walk.mem_keys_iff (hw : Walk g owning containing top done c) (htodo : c.todo = [])
    (hdone : ∀ o ∈ done, Expanded g owning containing o c) {k : Uid} :
    k ∈ c.copies.map Prod.fst ↔ g.Within owning containing top k := by
  constructor
  · intro hk
    obtain ⟨p, hp, rfl⟩ := List.mem_map.1 hk
    exact (hw.within p hp).2
  · intro hk
    induction hk with
    | refl => exact hw.started
    | @tail o k _ hok ih =>
      have ho : o ∈ done := by simpa [htodo] using hw.queued.mem_iff.1 ih
      rcases hok with ⟨r, hr, hl⟩ | ⟨r, hr, hl⟩
      · obtain ⟨-, k', -, hk, -⟩ := hdone o ho .source r hr k hl
        exact List.mem_map_of_mem hk
      · obtain ⟨-, k', -, hk, -⟩ := hdone o ho .target r hr k hl
        exact List.mem_map_of_mem hk

end Copying

end DesignGraph
