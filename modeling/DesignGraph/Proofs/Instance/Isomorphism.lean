import DesignGraph.Proofs.Model.Run
import Mathlib.Data.Set.Function

/-! # Deep copies are isomorphic copies

The structure of a component class is what is reached from it over structural children. In every model
that operations lead to, the deep copy of a component class gives each uid in this structure a new uid of
its own, so that structural facts and connections hold between copies exactly if they hold between what
they are copies of (`IsomorphicCopy`, `Reached.instantiateComponents_isomorphic`). -/

namespace DesignGraph

open Relation Copying Store

namespace UidSet

/-- The uids that `f` gives for the members. -/
def image (f : Uid → Uid) (s : UidSet) : UidSet := .ofList (s.toList.map f)

@[simp] theorem mem_image {f : Uid → Uid} {s : UidSet} {v : Uid} : v ∈ s.image f ↔ ∃ u ∈ s, f u = v := by
  simp [image]

end UidSet

namespace Store

variable {g h : Store} {r c : Uid} {copy : Uid → Uid}

/-- `k` is `c` or is reached from it over structural children. -/
def InStructure (g : Store) (c k : Uid) : Prop :=
  ReflTransGen (fun o k => k ∈ g.children (.single o) "" .forward) c k

/-- `h` holds a copy of the structure of the class `c` in `g`, and `copy` gives the copies: they are new,
each belongs to one uid only, and they are joined and connected as these are. A copy realizes the classes
of its template, and has its label unless that is empty. -/
structure IsomorphicCopy (g : Store) (c : Uid) (copy : Uid → Uid) (h : Store) : Prop where
  fresh : ∀ k, g.InStructure c k → copy k ∉ g ∧ copy k ∈ h
  injective : Set.InjOn copy {k | g.InStructure c k}
  structural : ∀ r ∈ g.subrelations (.single Vocabulary.hasA) ∪ g.subrelations (.single Vocabulary.partOf),
    ∀ o k, g.InStructure c o → g.InStructure c k →
      (g.Leads r .forward o k ↔ h.Joins r (.single (copy o)) (.single (copy k)))
  connected : ∀ r ∈ g.subrelations (.single Vocabulary.connects), ∀ S T : UidSet,
    (∀ u ∈ S, g.InStructure c u) → (∀ u ∈ T, g.InStructure c u) →
      (g.Joins r S T ↔ h.Joins r (S.image copy) (T.image copy))
  classes : ∀ k, g.InStructure c k → h.classesOf (copy k) =
    if k = c ∨ (g.classesOf k).isEmpty then .single k else g.classesOf k
  labels : ∀ k, g.InStructure c k → g.labelOf k ≠ "" → h.labelOf (copy k) = g.labelOf k

theorem Regular.mem_children (hg : Regular g) {o k : Uid} :
    k ∈ g.children (.single o) "" .forward ↔ g.Holds owningKinds containingKinds o k := by
  rw [Store.mem_children, hg.owning_eq, hg.containing_eq]
  simp only [UidSet.mem_single, exists_eq_left, leads_inverse_iff]
  exact ⟨fun h => h.2, fun h => ⟨hg.closed.holds h, h⟩⟩

theorem Regular.inStructure_iff (hg : Regular g) {k : Uid} :
    g.InStructure c k ↔ g.Within owningKinds containingKinds c k := by
  have : (fun o k => k ∈ g.children (.single o) "" .forward) = g.Holds owningKinds containingKinds := by
    funext o k
    exact propext hg.mem_children
  rw [InStructure, Within, this]

/-- A fact that starts at the copy of a template is one of those that the copy adds. -/
theorem copiedFact_of_asserts (hc : Copied g owningKinds containingKinds c copy h) (hg : g.Closed)
    {S T : List Uid} {k : Uid} (hk : g.Within owningKinds containingKinds c k) (hS : copy k ∈ S)
    (hf : h.Asserts r S T) : CopiedFact g owningKinds containingKinds c copy r S T := by
  refine (hc.adds.asserts_or hf).resolve_left fun hf => ?_
  exact (hc.fresh k hk).1 ((hg r S T hf).1 _ hS)

/-- A copy realizes what it is made to realize, and nothing else. -/
theorem classesOf_copy (hc : Copied g owningKinds containingKinds c copy h) (hg : Regular g)
    (hh : Regular h) {k : Uid} (hk : g.Within owningKinds containingKinds c k) :
    h.classesOf (copy k) = g.realized c k := by
  refine UidSet.ext fun v => ?_
  rw [hh.mem_classesOf]
  constructor
  · rintro ⟨S, T, hf, hS, hT⟩
    have hcf := copiedFact_of_asserts hc hg.closed hk hS hf
    generalize hr : Vocabulary.instanceOf = r at hcf
    cases hcf with
    | @realizes k' hk' =>
      obtain rfl := hc.injective k k' hk hk' (by simpa using hS)
      exact hT
    | holds _ _ hr' => exact absurd hr.symm (kind_of_structure hr').2.1
    | connects _ _ hr' => exact absurd hr.symm (kind_of_connection (hg.connecting_eq ▸ hr')).2
  · intro hv
    obtain ⟨S, T, hf, hS, hT⟩ := hc.realized (hg.declares (by decide)) k hk
    exact ⟨S, T, hf, (hS _).2 (UidSet.mem_single.2 rfl), (hT v).2 hv⟩

theorem mem_allMembers_copy_iff (hc : Copied g owningKinds containingKinds c copy h) (hg : Regular g)
    (hh : Regular h) {root : ClassRoot} {k : Uid} (hk : g.Within owningKinds containingKinds c k) :
    copy k ∈ h.allMembers root ↔ ∃ x ∈ g.realized c k, x ∈ g.allClasses root := by
  rw [mem_allMembers, classesOf_copy hc hg hh hk, hc.apart.allClasses_eq hg.closed (hg.root_mem root)]
  exact and_iff_right (hc.fresh k hk).2

/-- What was known before keeps its role when something is added apart from it. -/
theorem allMembers_iff_of_apart (hg : Regular g) (hgh : Apart g h) {root : ClassRoot} {u : Uid}
    (hu : u ∈ g) : u ∈ h.allMembers root ↔ u ∈ g.allMembers root := by
  rw [mem_allMembers, mem_allMembers, hgh.classesOf_eq hg.closed (hg.declares (by decide)).mem hu,
    hgh.allClasses_eq hg.closed (hg.root_mem root)]
  exact and_congr_left fun _ => ⟨fun _ => hu, fun _ => hgh.extends.mem hu⟩

/-- Templates are told apart by their copies. -/
theorem mem_iff_of_image (hc : Copied g owningKinds containingKinds c copy h) {S : List Uid} {S' : UidSet}
    (hS : ∀ u ∈ S, g.Within owningKinds containingKinds c u)
    (hS' : ∀ u ∈ S', g.Within owningKinds containingKinds c u)
    (himage : ∀ v, v ∈ (UidSet.ofList (S.map copy)).toList ↔ v ∈ S'.image copy) (u : Uid) :
    u ∈ S ↔ u ∈ S' := by
  simp only [UidSet.mem_toList, UidSet.mem_ofList, List.mem_map, UidSet.mem_image] at himage
  constructor
  · intro hu
    obtain ⟨u', hu', he⟩ := (himage (copy u)).1 ⟨u, hu, rfl⟩
    rwa [← hc.injective u' u (hS' u' hu') (hS u hu) he]
  · intro hu
    obtain ⟨u', hu', he⟩ := (himage (copy u)).2 ⟨u, hu, rfl⟩
    rwa [← hc.injective u' u (hS u' hu') (hS' u hu) he]

/-- Structural facts hold between copies as they do between templates. -/
theorem leads_iff_of_copied (hc : Copied g owningKinds containingKinds c copy h) (hg : Regular g)
    (hr : r ∈ owningKinds ∨ r ∈ containingKinds) {o k : Uid}
    (ho : g.Within owningKinds containingKinds c o) (hk : g.Within owningKinds containingKinds c k) :
    g.Leads r .forward o k ↔ h.Joins r (.single (copy o)) (.single (copy k)) := by
  rw [joins_single_iff]
  obtain ⟨-, hio, hcon⟩ := kind_of_structure hr
  constructor
  · intro hl
    have hd : g.Declares r := by
      obtain ⟨S, T, hf, -⟩ := hl
      exact (hg.sound r S T hf).declared
    exact hc.held r o k hd hr ho hk hl
  · intro hf
    have hcf := copiedFact_of_asserts hc hg.closed ho (List.mem_singleton_self _) hf
    generalize hS : [copy o] = S at hcf
    generalize hT : [copy k] = T at hcf
    cases hcf with
    | realizes => exact absurd rfl hio
    | @holds _ o' k' ho' hk' _ hl =>
      obtain rfl := hc.injective o o' ho ho' (by simpa using hS)
      obtain rfl := hc.injective k k' hk hk' (by simpa using hT)
      exact hl
    | connects _ _ hr' => exact absurd (hg.connecting_eq ▸ hr') hcon

/-- Connections hold between sets of copies as they do between the sets of their templates. -/
theorem joins_iff_of_copied (hc : Copied g owningKinds containingKinds c copy h) (hg : Regular g)
    (hh : Regular h) (hr : r ∈ g.subrelations (.single Vocabulary.connects)) {S T : UidSet}
    (hS : ∀ u ∈ S, g.Within owningKinds containingKinds c u)
    (hT : ∀ u ∈ T, g.Within owningKinds containingKinds c u) :
    g.Joins r S T ↔ h.Joins r (S.image copy) (T.image copy) := by
  constructor
  · rintro ⟨S', T', hf, hS', hT'⟩
    have hs := hg.sound r S' T' hf
    have hj := hc.connected r S' T' hs.declared hr hf hs.source.1 hs.target.1
      (fun u hu => hS u ((hS' u).1 hu)) fun u hu => hT u ((hT' u).1 hu)
    have himage : ∀ {l : List Uid} {s : UidSet}, (∀ u, u ∈ l ↔ u ∈ s) →
        UidSet.ofList (l.map copy) = s.image copy := fun hl => UidSet.ext fun v => by simp [hl]
    rwa [himage hS', himage hT'] at hj
  · rintro ⟨S', T', hf, hS', hT'⟩
    obtain ⟨v, hv⟩ := List.exists_mem_of_ne_nil S' (hh.sound r S' T' hf).source.1
    obtain ⟨k, hk, rfl⟩ := UidSet.mem_image.1 ((hS' v).1 hv)
    rw [hg.connecting_eq] at hr
    have hcf := copiedFact_of_asserts hc hg.closed (hS k hk) hv hf
    cases hcf with
    | realizes => exact absurd rfl (kind_of_connection hr).2
    | holds _ _ hr' => exact absurd hr (kind_of_structure hr').2.2
    | @connects _ S₀ T₀ hf₀ _ _ hS₀ hT₀ =>
      exact ⟨S₀, T₀, hf₀, mem_iff_of_image hc hS₀ hS hS', mem_iff_of_image hc hT₀ hT hT'⟩

theorem Regular.isomorphicCopy (hg : Regular g) (hcg : c ∈ g)
    (hc : Copied g owningKinds containingKinds c copy h) : IsomorphicCopy g c copy h := by
  have hh : Regular h := hg.copied hcg hc
  have hin : ∀ {k}, g.InStructure c k ↔ g.Within owningKinds containingKinds c k := hg.inStructure_iff
  constructor
  case fresh => exact fun k hk => hc.fresh k (hin.1 hk)
  case injective => exact fun k hk l hl he => hc.injective k l (hin.1 hk) (hin.1 hl) he
  case structural =>
    intro r hr o k ho hk
    rw [UidSet.mem_union, hg.owning_eq, hg.containing_eq] at hr
    exact leads_iff_of_copied hc hg hr (hin.1 ho) (hin.1 hk)
  case connected =>
    exact fun r hr S T hS hT => joins_iff_of_copied hc hg hh hr (fun u hu => hin.1 (hS u hu))
      fun u hu => hin.1 (hT u hu)
  case classes => exact fun k hk => classesOf_copy hc hg hh (hin.1 hk)
  case labels =>
    intro k hk hne
    obtain ⟨x, -, hl⟩ := hc.labelled k (hin.1 hk)
    rw [hl, if_neg hne]

/-- The deep copy of a component class. -/
theorem Regular.exists_copied (hg : Regular g) (hc : c ∈ g.allClasses .component) :
    ∃ copy h, g.instantiateComponents (.single c) = (.ok (.single (copy c)), h) ∧
      Copied g owningKinds containingKinds c copy h := by
  have hinter : UidSet.single c ∩ g.allClasses .component = .single c := by
    refine UidSet.ext fun u => ?_
    rw [UidSet.mem_inter, UidSet.mem_single]
    exact ⟨fun h => h.1, fun h => ⟨h, h ▸ hc⟩⟩
  have hcg : c ∈ g := (mem_allClasses.1 hc).1
  obtain ⟨tops, h, hok, hturn⟩ := hg.instantiateDeep_ok (.single c)
  rw [instantiateComponents, hinter, hok]
  have hlist : (UidSet.single c).toList = [c] := rfl
  rw [hlist] at hturn
  cases hturn with
  | unknown hu _ => exact absurd hcg hu
  | @copied _ _ _ _ copy _ _ _ hcop hrest =>
    cases hrest
    exact ⟨copy, h, rfl, hcop⟩

end Store

namespace Reached

/-- **Deep copies**: in every model that operations lead to, copying a component class gives one new
instance, the copy of the class, and leaves an isomorphic copy of its structure. -/
theorem instantiateComponents_isomorphic {g : Store} (hg : Reached Operation.Modelling g) {c : Uid}
    (hc : c ∈ g.allClasses .component) :
    ∃ copy h, g.instantiateComponents (.single c) = (.ok (.single (copy c)), h) ∧
      g.IsomorphicCopy c copy h := by
  obtain ⟨copy, h, hok, hcop⟩ := hg.regular.exists_copied hc
  have hcg : c ∈ g := (Store.mem_allClasses.1 hc).1
  exact ⟨copy, h, hok, hg.regular.isomorphicCopy hcg hcop⟩

/-- A network with a part whose port is connected to a port of the network. -/
def camera : List Operation := [
  .createClass .network "Camera" "" ∅,
  .createClass .component "Sensor" "" ∅,
  .createClass .softwareInterface "Port" "" ∅,
  .instantiate (.single "Sensor") "sensor",
  .instantiate (.single "Port") "image",
  .instantiate (.single "Port") "frames",
  .partOfNetwork ["Sensor1"] ["Camera"],
  .hasInterface ["Camera"] ["Port1"],
  .hasInterface ["Sensor1"] ["Port2"],
  .connectInterface ["Port2"] ["Port1"]]

theorem instantiateComponents_camera :
    let g := camera.foldl Operation.apply Store.blank
    Reached Operation.Modelling g ∧ "Camera" ∈ g.allClasses .component ∧
      g.Asserts Vocabulary.connectedTo ["Port2"] ["Port1"] ∧
      ∃ copy h, g.instantiateComponents (.single "Camera") = (.ok (.single (copy "Camera")), h) ∧
        g.IsomorphicCopy "Camera" copy h := by
  have hg : Reached Operation.Modelling (camera.foldl Operation.apply Store.blank) :=
    Reached.blank.foldl (by simp [camera, Operation.Modelling])
  have hfacts : "Camera" ∈ (camera.foldl Operation.apply Store.blank).allClasses .component ∧
      (camera.foldl Operation.apply Store.blank).Asserts Vocabulary.connectedTo ["Port2"] ["Port1"] := by
    decide +kernel
  exact ⟨hg, hfacts.1, hfacts.2, instantiateComponents_isomorphic hg hfacts.1⟩

end Reached

end DesignGraph
