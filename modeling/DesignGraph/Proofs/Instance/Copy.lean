import DesignGraph.Proofs.Instance.Walk
import Mathlib.Tactic.Linarith

/-! # What a deep copy is

`Copied g owning containing top copy h` says that `h` is `g` with a copy of the structure of `top`: `copy`
gives every uid within that structure a new uid of its own, and the facts added are those that say what
the copies realize, that hold the copies together as their templates are held together, and that repeat
the connections between templates (`CopiedFact`); all of these are there. Nothing else is said about the
order of the walk or the uids it handed out.

* `instantiateClass_ok`: copying a known class succeeds and leaves such a store.
* `instantiateDeep_ok`: copying any set of classes does so for one class after the other (`CopiedInTurn`).
* `CopiedInTurn.apart`, `CopiedInTurn.closed`: the copies stay apart from what was there before. -/

namespace DesignGraph

open Store

namespace Copying

/-- The facts of the copy of the structure of `top`. -/
inductive CopiedFact (g : Store) (owning containing : UidSet) (top : Uid) (copy : Uid → Uid) :
    Uid → List Uid → List Uid → Prop
  | realizes {k : Uid} (hk : g.Within owning containing top k) :
    CopiedFact g owning containing top copy Vocabulary.instanceOf [copy k] (g.realized top k).toList
  | holds {r o k : Uid} (ho : g.Within owning containing top o) (hk : g.Within owning containing top k)
      (hr : r ∈ owning ∨ r ∈ containing) (hl : g.Leads r .forward o k) :
    CopiedFact g owning containing top copy r [copy o] [copy k]
  | connects {r : Uid} {S T : List Uid} (hf : g.Asserts r S T) (hne : S ≠ [] ∧ T ≠ [])
      (hr : r ∈ g.subrelations (.single Vocabulary.connects))
      (hS : ∀ u ∈ S, g.Within owning containing top u) (hT : ∀ u ∈ T, g.Within owning containing top u) :
    CopiedFact g owning containing top copy r (UidSet.ofList (S.map copy)).toList
      (UidSet.ofList (T.map copy)).toList

/-- `h` is `g` with a copy of the structure of `top`, where `copy` gives the copies. -/
structure Copied (g : Store) (owning containing : UidSet) (top : Uid) (copy : Uid → Uid) (h : Store) :
    Prop where
  keeps : Keeps g h
  adds : Adds (CopiedFact g owning containing top copy) g h
  fresh : ∀ k, g.Within owning containing top k → copy k ∉ g ∧ copy k ∈ h
  injective : ∀ k l, g.Within owning containing top k → g.Within owning containing top l →
    copy k = copy l → k = l
  realized : g.Declares Vocabulary.instanceOf → ∀ k, g.Within owning containing top k →
    h.Joins Vocabulary.instanceOf (.single (copy k)) (g.realized top k)
  labelled : ∀ k, g.Within owning containing top k → ∃ x ∈ g.realized top k,
    h.labelOf (copy k) = if g.labelOf k = "" then g.labelOf x else g.labelOf k
  held : ∀ r o k, g.Declares r → r ∈ owning ∨ r ∈ containing → g.Within owning containing top o →
    g.Within owning containing top k → g.Leads r .forward o k → h.Asserts r [copy o] [copy k]
  connected : ∀ r S T, g.Declares r → r ∈ g.subrelations (.single Vocabulary.connects) →
    g.Asserts r S T → S ≠ [] → T ≠ [] → (∀ u ∈ S, g.Within owning containing top u) →
    (∀ u ∈ T, g.Within owning containing top u) →
    h.Joins r (.ofList (S.map copy)) (.ofList (T.map copy))

variable {g h : Store} {owning containing : UidSet} {top : Uid} {copy : Uid → Uid}

theorem ne_nil_of_isEmpty {l : List Uid} (h : ¬ (UidSet.ofList l).isEmpty) : l ≠ [] := by
  rintro rfl
  exact h rfl

theorem not_isEmpty_ofList {l : List Uid} (h : l ≠ []) : ¬ (UidSet.ofList l).isEmpty := by
  obtain ⟨u, hu⟩ := List.exists_mem_of_ne_nil l h
  exact UidSet.isEmpty_eq_false_iff.2 ⟨u, UidSet.mem_ofList.2 hu⟩

namespace Copied

theorem of_mem_image (hc : Copied g owning containing top copy h) {S : List Uid}
    (hS : ∀ u ∈ S, g.Within owning containing top u) {v : Uid}
    (hv : v ∈ (UidSet.ofList (S.map copy)).toList) : v ∉ g ∧ v ∈ h := by
  obtain ⟨u, hu, rfl⟩ := List.mem_map.1 (UidSet.mem_ofList.1 hv)
  exact hc.fresh u (hS u hu)

theorem apart (hc : Copied g owning containing top copy h) : Apart g h := by
  refine hc.adds.mono fun r S T hf => ?_
  cases hf with
  | realizes hk => exact ⟨by simp, by simpa using (hc.fresh _ hk).1, fun hr => absurd rfl hr⟩
  | holds ho hk _ _ =>
    exact ⟨by simp, by simpa using (hc.fresh _ ho).1, fun _ => by simpa using (hc.fresh _ hk).1⟩
  | @connects r S T _ hne _ hS hT =>
    exact ⟨fun h => not_isEmpty_ofList (by simpa using hne.1) (List.isEmpty_iff.2 h),
      fun u hu => (hc.of_mem_image hS hu).1, fun _ u hu => (hc.of_mem_image hT hu).1⟩

theorem closed (hc : Copied g owning containing top copy h) (hg : g.Closed) (ht : top ∈ g) :
    h.Closed := by
  intro r S T hf
  rcases hc.adds.asserts_or hf with hf | hf
  · obtain ⟨hS, hT⟩ := hg r S T hf
    exact ⟨fun u hu => hc.keeps.mem (hS u hu), fun u hu => hc.keeps.mem (hT u hu)⟩
  · cases hf with
    | @realizes k hk =>
      refine ⟨by simpa using (hc.fresh k hk).2, fun u hu => hc.keeps.mem ?_⟩
      exact known_of_mem_realized (hg.within ht hk) hu
    | holds ho hk _ _ => exact ⟨by simpa using (hc.fresh _ ho).2, by simpa using (hc.fresh _ hk).2⟩
    | connects _ _ _ hS hT =>
      exact ⟨fun u hu => (hc.of_mem_image hS hu).2, fun u hu => (hc.of_mem_image hT hu).2⟩

end Copied

/-! ### Repeating the connections -/

/-- The copy of a template as the table has it. -/
def copyOf (copies : List (Uid × Uid)) (k : Uid) : Uid := (copies.lookup k).getD k

theorem isSome_lookup_iff {copies : List (Uid × Uid)} {k : Uid} :
    (copies.lookup k).isSome ↔ k ∈ copies.map Prod.fst := by
  rw [List.lookup_isSome_iff, List.mem_map]
  constructor
  · rintro ⟨p, hp, he⟩
    exact ⟨p, hp, (beq_iff_eq.1 he).symm⟩
  · rintro ⟨p, hp, rfl⟩
    exact ⟨p, hp, by simp⟩

theorem lookup_eq_copyOf {copies : List (Uid × Uid)} {k : Uid} (hk : k ∈ copies.map Prod.fst) :
    copies.lookup k = some (copyOf copies k) := by
  obtain ⟨k', hk'⟩ := Option.isSome_iff_exists.1 (isSome_lookup_iff.2 hk)
  rw [copyOf, hk', Option.getD_some]

theorem filterMap_lookup {copies : List (Uid × Uid)} {l : List Uid}
    (hl : ∀ u ∈ l, u ∈ copies.map Prod.fst) :
    l.filterMap (fun u => copies.lookup u) = l.map (copyOf copies) := by
  induction l with
  | nil => rfl
  | cons u l ih =>
    simp only [List.filterMap_cons, lookup_eq_copyOf (hl u (by simp)), List.map_cons]
    rw [ih fun v hv => hl v (by simp [hv])]

theorem connectCopies_of_all {copies : List (Uid × Uid)} {s : Store} {f : Uid × Hyperedge}
    (hf : ∀ u ∈ f.2.sources ++ f.2.targets, u ∈ copies.map Prod.fst) : connectCopies copies s f =
      (s.relateFrom f.1 (.ofList (f.2.sources.map (copyOf copies)))
        (.ofList (f.2.targets.map (copyOf copies)))).2 := by
  have hall : f.2.endpoints.all fun u => (copies.lookup u).isSome :=
    List.all_eq_true.2 fun u hu => isSome_lookup_iff.2 (hf u hu)
  simp only [connectCopies]
  rw [if_pos hall, filterMap_lookup fun u hu => hf u (List.mem_append_left _ hu),
    filterMap_lookup fun u hu => hf u (List.mem_append_right _ hu)]

theorem connectCopies_of_not_all {copies : List (Uid × Uid)} {s : Store} {f : Uid × Hyperedge}
    (hf : ¬ ∀ u ∈ f.2.sources ++ f.2.targets, u ∈ copies.map Prod.fst) :
    connectCopies copies s f = s := by
  have hall : ¬ f.2.endpoints.all fun u => (copies.lookup u).isSome := fun h =>
    hf fun u hu => isSome_lookup_iff.1 (List.all_eq_true.1 h u hu)
  simp only [connectCopies]
  rw [if_neg hall]

/-- All facts are repeated whose endpoints all have a copy, and nothing else is stored. -/
theorem foldl_connectCopies (copies : List (Uid × Uid)) (P : Uid → List Uid → List Uid → Prop) :
    ∀ (l : List (Uid × Hyperedge)) (s : Store),
      (∀ f ∈ l, (∀ u ∈ f.2.sources ++ f.2.targets, u ∈ copies.map Prod.fst) →
        f.2.sources ≠ [] → f.2.targets ≠ [] →
        P f.1 (UidSet.ofList (f.2.sources.map (copyOf copies))).toList
          (UidSet.ofList (f.2.targets.map (copyOf copies))).toList) →
      Keeps s (l.foldl (connectCopies copies) s) ∧ Adds P s (l.foldl (connectCopies copies) s) ∧
        ∀ f ∈ l, (∀ u ∈ f.2.sources ++ f.2.targets, u ∈ copies.map Prod.fst) →
          f.1 ≠ "" → s.Declares f.1 → f.2.sources ≠ [] → f.2.targets ≠ [] →
          (l.foldl (connectCopies copies) s).Joins f.1
            (.ofList (f.2.sources.map (copyOf copies))) (.ofList (f.2.targets.map (copyOf copies))) := by
  intro l
  -- what is asserted for the first fact is still there when the others have been repeated
  induction l with
  | nil =>
    intro s _
    exact ⟨.refl s, .refl P s, by simp⟩
  | cons f l ih =>
    intro s hP
    obtain ⟨hk, ha, hall⟩ := ih (connectCopies copies s f) fun f' hf' => hP f' (by simp [hf'])
    rw [List.foldl_cons]
    by_cases hf : ∀ u ∈ f.2.sources ++ f.2.targets, u ∈ copies.map Prod.fst
    · rw [connectCopies_of_all hf] at hk ha hall ⊢
      have ha₁ : Adds P s (s.relateFrom f.1 (.ofList (f.2.sources.map (copyOf copies)))
          (.ofList (f.2.targets.map (copyOf copies)))).2 := by
        refine (adds_relateFrom _ _ _ _).mono ?_
        rintro r S T ⟨⟨rfl, rfl, rfl⟩, hS, hT, -⟩
        exact hP f (by simp) hf (by simpa using ne_nil_of_isEmpty hS)
          (by simpa using ne_nil_of_isEmpty hT)
      refine ⟨(keeps_relateFrom _ _ _ _).trans hk, ha₁.trans ha, fun f' hf' hin hne hd hS hT => ?_⟩
      rcases List.mem_cons.1 hf' with rfl | hf'
      · exact ha.extends.joins (joins_relateFrom hd hne (not_isEmpty_ofList (by simpa using hS))
          (not_isEmpty_ofList (by simpa using hT)))
      · exact hall f' hf' hin hne (ha₁.extends.declares hd) hS hT
    · rw [connectCopies_of_not_all hf] at hk ha hall ⊢
      refine ⟨hk, ha, fun f' hf' hin => ?_⟩
      rcases List.mem_cons.1 hf' with rfl | hf'
      · exact absurd hin hf
      · exact hall f' hf' hin

namespace Walk

variable {done : List Uid} {c : Copying}

theorem copyOf_eq (hw : Walk g owning containing top done c) {k k' : Uid} (hp : (k, k') ∈ c.copies) :
    copyOf c.copies k = k' := by
  rw [copyOf, lookup_of_mem hw.distinct hp, Option.getD_some]

/-- Told by the table of copies, the walk has added facts of the copy only. -/
theorem addsCopied (hw : Walk g owning containing top done c) :
    Adds (CopiedFact g owning containing top (copyOf c.copies)) g c.store := by
  refine hw.adds.mono fun r S T hf => ?_
  cases hf with
  | realizes hk =>
    rw [← hw.copyOf_eq hk]
    exact .realizes (hw.within _ hk).2
  | holds ho hk hr hl =>
    rw [← hw.copyOf_eq ho, ← hw.copyOf_eq hk]
    exact .holds (hw.within _ ho).2 (hw.within _ hk).2 hr hl

/-- Once all templates are expanded, their copies are held together as they are. -/
theorem held (hw : Walk g owning containing top done c) (htodo : c.todo = [])
    (hdone : ∀ o ∈ done, Expanded g owning containing o c) {r o k : Uid} (hd : g.Declares r)
    (hr : r ∈ owning ∨ r ∈ containing) (ho : o ∈ c.copies.map Prod.fst)
    (hk : k ∈ c.copies.map Prod.fst) (hl : g.Leads r .forward o k) :
    c.store.Asserts r [copyOf c.copies o] [copyOf c.copies k] := by
  have hexp : ∀ o ∈ c.copies.map Prod.fst, Expanded g owning containing o c := by
    intro o ho
    have := hw.queued.mem_iff.1 ho
    rw [htodo, List.append_nil] at this
    exact hdone o this
  -- the end that the fact was followed from is that of the owner or that of the part
  rcases hr with hr | hr
  · obtain ⟨o', k', ho', hk', hf⟩ := hexp o ho .source r hr k hl
    rw [hw.copyOf_eq ho', hw.copyOf_eq hk']
    exact hf hd
  · obtain ⟨k', o', hk', ho', hf⟩ := hexp k hk .target r hr o hl
    rw [hw.copyOf_eq ho', hw.copyOf_eq hk']
    exact hf hd

/-- A fact whose endpoints all have copies was there before the walk. -/
theorem asserts_of_keys (hw : Walk g owning containing top done c) {r : Uid} {e : Hyperedge}
    (hf : (r, e) ∈ c.store.facts) (hin : ∀ u ∈ e.sources ++ e.targets, u ∈ c.copies.map Prod.fst) :
    g.Asserts r e.sources e.targets := by
  obtain ⟨he, ha⟩ := mem_facts.1 hf
  refine hw.apart.asserts ⟨e, he, ha, rfl, rfl⟩ fun u hu => ?_
  obtain ⟨p, hp, rfl⟩ := List.mem_map.1 (hin u (List.mem_append_left _ hu))
  exact (hw.within p hp).1

end Walk

/-! ### The copy of one class -/

section Class

variable (hg : g.Closed) (hio : Vocabulary.instanceOf ∈ g) (hco : Vocabulary.connects ∈ g)
  (hc : Vocabulary.instanceOf ∉ containing)

include hg hco in
/-- The connections between templates are repeated, and nothing else is stored. -/
theorem connect_spec {c : Copying} {done : List Uid} (hw : Walk g owning containing top done c)
    (htodo : c.todo = []) (hdone : ∀ o ∈ done, Expanded g owning containing o c) :
    Keeps c.store c.connect ∧ Adds (CopiedFact g owning containing top (copyOf c.copies)) c.store c.connect ∧
      ∀ r S T, g.Declares r → r ∈ g.subrelations (.single Vocabulary.connects) → g.Asserts r S T →
        S ≠ [] → T ≠ [] → (∀ u ∈ S, g.Within owning containing top u) →
        (∀ u ∈ T, g.Within owning containing top u) →
        c.connect.Joins r (.ofList (S.map (copyOf c.copies))) (.ofList (T.map (copyOf c.copies))) := by
  have hkey : ∀ k, k ∈ c.copies.map Prod.fst ↔ g.Within owning containing top k := fun k =>
    hw.mem_keys_iff htodo hdone
  have hkinds : c.store.subrelations (.single Vocabulary.connects) =
      g.subrelations (.single Vocabulary.connects) :=
    hw.apart.subrelations_eq hg (by simpa using hco)
  obtain ⟨hk, ha, hall⟩ := foldl_connectCopies c.copies
    (CopiedFact g owning containing top (copyOf c.copies))
    (c.store.facts.filter fun f =>
      decide (f.1 ∈ c.store.subrelations (.single Vocabulary.connects)) &&
        meetsSome f.2.sources (some (UidSet.ofList (c.copies.map Prod.fst)))) c.store (by
      rintro ⟨r, e⟩ hf hin hS hT
      obtain ⟨hf, hr⟩ := List.mem_filter.1 hf
      simp only [Bool.and_eq_true, decide_eq_true_eq] at hr
      rw [hkinds] at hr
      exact .connects (hw.asserts_of_keys hf hin) ⟨hS, hT⟩ hr.1
        (fun u hu => (hkey u).1 (hin u (List.mem_append_left _ hu)))
        fun u hu => (hkey u).1 (hin u (List.mem_append_right _ hu)))
  refine ⟨hk, ha, fun r S T hd hr hf hS hT hSw hTw => ?_⟩
  obtain ⟨e, he, hr', rfl, rfl⟩ := hw.adds.extends.asserts hf
  have hin : ∀ u ∈ e.sources ++ e.targets, u ∈ c.copies.map Prod.fst := fun u hu =>
    (hkey u).2 ((List.mem_append.1 hu).elim (hSw u) (hTw u))
  refine hall (r, e) (List.mem_filter.2 ⟨mem_facts.2 ⟨he, hr'⟩, ?_⟩) hin hf.ne_empty
    (hw.adds.extends.declares hd) hS hT
  obtain ⟨u, hu⟩ := List.exists_mem_of_ne_nil _ hS
  simp only [Bool.and_eq_true, decide_eq_true_eq, meetsSome, List.any_eq_true]
  exact ⟨by rwa [hkinds], u, hu, UidSet.mem_ofList.2 (hin u (List.mem_append_left _ hu))⟩

include hg hco in
/-- **The end of a walk**: with the connections repeated, the structure is copied. -/
theorem copied_connect {c : Copying} {done : List Uid} (hw : Walk g owning containing top done c)
    (htodo : c.todo = []) (hdone : ∀ o ∈ done, Expanded g owning containing o c) :
    Copied g owning containing top (copyOf c.copies) c.connect := by
  have hkey : ∀ k, k ∈ c.copies.map Prod.fst ↔ g.Within owning containing top k := fun k =>
    hw.mem_keys_iff htodo hdone
  have hmem : ∀ k, g.Within owning containing top k → (k, copyOf c.copies k) ∈ c.copies := fun k hk =>
    mem_of_lookup (lookup_eq_copyOf ((hkey k).2 hk))
  obtain ⟨hk, ha, hconnected⟩ := connect_spec hg hco hw htodo hdone
  constructor
  case keeps => exact hw.keeps.trans hk
  case adds => exact hw.addsCopied.trans ha
  case fresh =>
    intro k hk'
    obtain ⟨hnew, hst⟩ := hw.fresh _ (hmem k hk')
    exact ⟨hnew, hk.mem hst⟩
  case injective =>
    intro k l hk' hl he
    have hk₂ := hmem k hk'
    have hl₂ := hmem l hl
    rw [he] at hk₂
    exact congrArg Prod.fst (List.inj_on_of_nodup_map hw.injective hk₂ hl₂ rfl)
  case realized => exact fun hd k hk' => ha.extends.joins (hw.joined hd _ (hmem k hk'))
  case labelled =>
    intro k hk'
    obtain ⟨x, hx, hl⟩ := hw.labelled _ (hmem k hk')
    exact ⟨x, hx, (hk.labelOf (hw.fresh _ (hmem k hk')).2).trans hl⟩
  case held =>
    exact fun r o k hd hr ho hk' hl =>
      ha.extends.asserts (hw.held htodo hdone hd hr ((hkey o).2 ho) ((hkey k).2 hk') hl)
  case connected => exact hconnected

theorem size_le_stepBound (g : Store) : g.size ≤ stepBound g := by
  have hlen : ∀ (l : List Hyperedge) (n : Nat),
      n + l.length ≤ l.foldl (fun total e => total + (e.endpoints.length + 1)) n := by
    intro l
    induction l with
    | nil => simp
    | cons e l ih =>
      intro n
      have := ih (n + (e.endpoints.length + 1))
      simp only [List.foldl_cons, List.length_cons]
      omega
  have := hlen g.edges 0
  unfold stepBound size
  nlinarith

theorem instantiateClass_of_not_mem {u : Uid} (hu : u ∉ g) :
    instantiateClass owning containing g u = .ok (none, g) := by
  have hn : (g.known (.single u)).isEmpty := by
    by_contra hn
    obtain ⟨v, hv⟩ := UidSet.isEmpty_eq_false_iff.1 hn
    obtain ⟨hvu, hv⟩ := mem_known.1 hv
    exact hu (UidSet.mem_single.1 hvu ▸ hv)
  rw [instantiateClass, instantiate_of_isEmpty hn]

omit hg hio hco hc in
/-- **The start of a walk**: the class has its copy and waits for its children to be copied. -/
theorem Walk.start {u u' : Uid} {g₁ : Store} (hu : u ∈ g) (hm : MadeInstance g (.single u) "" u' g₁) :
    Walk g owning containing u [] ⟨g₁, [(u, u')], [u]⟩ := by
  have hreal : g.realized u u = .single u := by simp [realized]
  refine ⟨hm.keeps, hm.adds.mono ?_, by simp, by simp, by simp, by simp, ?_, ?_, ?_, ?_⟩
  · rintro r S T ⟨⟨rfl, rfl, rfl⟩, -⟩
    rw [← hreal]
    exact .realizes (by simp)
  · intro p hp
    rw [List.mem_singleton.1 hp]
    exact ⟨hu, .refl⟩
  · intro p hp
    rw [List.mem_singleton.1 hp]
    exact ⟨hm.fresh, hm.stored⟩
  · intro hd p hp
    rw [List.mem_singleton.1 hp, hreal]
    exact hm.joined hd
  · intro p hp
    obtain ⟨x, hx, hl⟩ := hm.labelled
    rw [List.mem_singleton.1 hp, hreal]
    obtain rfl := UidSet.mem_single.1 hx
    exact ⟨x, hx, by simpa using hl⟩

omit hg hio hco hc in
/-- A known class has an instance of its own at the top of its copy. -/
theorem exists_top {u : Uid} (hu : u ∈ g) :
    ∃ u' g₁, g.instantiate (.single u) "" = (some u', g₁) ∧ MadeInstance g (.single u) "" u' g₁ := by
  have hkn : g.known (.single u) = .single u := known_eq (by simpa using hu)
  obtain ⟨u', g₁, hi, hm⟩ := exists_madeInstance g (.single u) "" (by
    rw [hkn]
    exact UidSet.isEmpty_eq_false_iff.2 ⟨u, UidSet.mem_single.2 rfl⟩)
  rw [hkn] at hm
  exact ⟨u', g₁, hi, hm⟩

include hg hio hco hc in
/-- **The copy of a class**: copying a known class succeeds, gives the copy of the class itself, and
leaves a store in which the structure of the class is copied. -/
theorem instantiateClass_ok {u : Uid} (hu : u ∈ g) :
    ∃ copy h, instantiateClass owning containing g u = .ok (some (copy u), h) ∧
      Copied g owning containing u copy h := by
  obtain ⟨u', g₁, hi, hm⟩ := exists_top hu
  have hw : Walk g owning containing u [] ⟨g₁, [(u, u')], [u]⟩ := .start hu hm
  obtain ⟨c, done, hrun, hw', htodo, hlater, hdone⟩ := run_ok hg hio hc
    (n := stepBound g₁) hw (hm.adds.extends.size_le.trans (size_le_stepBound g₁)) (by simp)
  refine ⟨copyOf c.copies, c.connect, ?_, copied_connect hg hco hw' htodo hdone⟩
  have hcopy : copyOf c.copies u = u' := hw'.copyOf_eq (hlater.1 (u, u') (by simp))
  rw [instantiateClass, hi, hcopy]
  simp only [hrun]
  rfl

end Class

/-! ### The copies of several classes -/

/-- `h` is `g` with copies of the known ones among the classes, made one after the other, and `tops` are
the copies of the classes themselves. -/
inductive CopiedInTurn (owning containing : UidSet) : Store → List Uid → List Uid → Store → Prop
  | nil (g : Store) : CopiedInTurn owning containing g [] [] g
  | unknown {g h : Store} {u : Uid} {classes tops : List Uid} (hu : u ∉ g)
      (hrest : CopiedInTurn owning containing g classes tops h) :
    CopiedInTurn owning containing g (u :: classes) tops h
  | copied {g g' h : Store} {u : Uid} {copy : Uid → Uid} {classes tops : List Uid} (hu : u ∈ g)
      (hc : Copied g owning containing u copy g')
      (hrest : CopiedInTurn owning containing g' classes tops h) :
    CopiedInTurn owning containing g (u :: classes) (copy u :: tops) h

theorem CopiedInTurn.apart {classes tops : List Uid}
    (hc : CopiedInTurn owning containing g classes tops h) : Apart g h := by
  induction hc with
  | nil g => exact .refl g
  | unknown _ _ ih => exact ih
  | copied _ hc _ ih => exact hc.apart.trans ih

theorem CopiedInTurn.closed {classes tops : List Uid}
    (hc : CopiedInTurn owning containing g classes tops h) (hg : g.Closed) : h.Closed := by
  induction hc with
  | nil => exact hg
  | unknown _ _ ih => exact ih hg
  | copied hu hc _ ih => exact ih (hc.closed hg hu)

end Copying

namespace Store

open Copying

variable {g : Store}

/-- Copying one class after the other copies them in turn. -/
theorem foldlM_instantiateNext (owning : UidSet) {containing : UidSet}
    (hc : Vocabulary.instanceOf ∉ containing) :
    ∀ (l : List Uid) (s : UidSet) (g : Store), g.Closed → Vocabulary.instanceOf ∈ g →
      Vocabulary.connects ∈ g →
      ∃ tops h, l.foldlM (instantiateNext owning containing) (s, g) = .ok (s.insertAll tops, h) ∧
        CopiedInTurn owning containing g l tops h := by
  intro l
  induction l with
  | nil =>
    intro s g _ _ _
    exact ⟨[], g, rfl, .nil g⟩
  | cons u l ih =>
    intro s g hg hio hco
    by_cases hu : u ∈ g
    · obtain ⟨copy, g', hok, hcop⟩ : ∃ copy g', instantiateClass owning containing g u =
          .ok (some (copy u), g') ∧ Copied g owning containing u copy g' :=
        instantiateClass_ok hg hio hco hc hu
      obtain ⟨tops, h, hrest, hturn⟩ := ih (s.insertAll [copy u]) g' (hcop.closed hg hu)
        (hcop.keeps.mem hio) (hcop.keeps.mem hco)
      refine ⟨copy u :: tops, h, ?_, .copied hu hcop hturn⟩
      rw [List.foldlM_cons, instantiateNext, hok]
      exact hrest
    · obtain ⟨tops, h, hrest, hturn⟩ := ih s g hg hio hco
      refine ⟨tops, h, ?_, .unknown hu hturn⟩
      rw [List.foldlM_cons, instantiateNext, instantiateClass_of_not_mem hu]
      exact hrest

/-- **Deep copies**: where facts lead to known uids only and realizing a class is no way of being a part
of it, copying any set of classes succeeds. -/
theorem instantiateDeep_ok (hg : g.Closed) (hio : Vocabulary.instanceOf ∈ g)
    (hco : Vocabulary.connects ∈ g)
    (hc : Vocabulary.instanceOf ∉ g.subrelations (.single Vocabulary.partOf)) (classes : UidSet) :
    ∃ tops h, g.instantiateDeep classes = (.ok (.ofList tops), h) ∧
      CopiedInTurn (g.subrelations (.single Vocabulary.hasA)) (g.subrelations (.single Vocabulary.partOf))
        g classes.toList tops h := by
  obtain ⟨tops, h, hok, hturn⟩ := foldlM_instantiateNext (g.subrelations (.single Vocabulary.hasA)) hc
    classes.toList ∅ g hg hio hco
  refine ⟨tops, h, ?_, hturn⟩
  rw [instantiateDeep, hok]
  rfl

end Store

end DesignGraph
