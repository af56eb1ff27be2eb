import DesignGraph.Proofs.Entity.Netlist
import DesignGraph.Proofs.Entity.SelfContained
import DesignGraph.Proofs.Model.Operation

/-! # The names of signals

A signal is called by its part, by the word for inputs or for outputs, and by the label of the interface, with
underscores between the three. As underscores stand inside the first and the last as well, a name may be read
in two ways: the uid of one part can go on where that of another ends, with the word for an interface of the
latter (`Identifier.ReadsOn`). Where interfaces are told apart inside each part, this is the only way in which
two of them get one signal (`Store.nodup_signals_iff`). -/

namespace DesignGraph

namespace Identifier

variable {p q k k' x y : String}

/-- `q` goes on where `p` ends, with the word `k`, and `x` reads like what is left of `q`, `k'` and `y`. -/
def ReadsOn (p k x q k' y : String) : Prop :=
  ∃ m, q = p ++ "_" ++ k ++ m ∧ "_" ++ x = m ++ "_" ++ k' ++ "_" ++ y

theorem underscore_append_iff {w d l r : List Char} (hw : w ≠ []) (hd : '_' ∉ d) :
    '_' :: (d ++ '_' :: l) = w ++ '_' :: r ↔ ∃ m, w = '_' :: (d ++ m) ∧ '_' :: l = m ++ '_' :: r := by
  constructor
  · intro h
    rw [← List.cons_append] at h
    rcases List.append_eq_append_iff.1 h with ⟨m, hwm, hm⟩ | ⟨m, hdm, hm⟩
    · exact ⟨m, hwm, hm⟩
    · -- `w` ends inside the word, where no underscore can follow it
      cases m with
      | nil => exact ⟨[], by simpa using hdm.symm, by simpa using hm.symm⟩
      | cons c m =>
        obtain ⟨rfl, -⟩ := List.cons.inj hm
        obtain ⟨b, w, rfl⟩ := List.exists_cons_of_ne_nil hw
        obtain ⟨-, rfl⟩ := List.cons.inj hdm
        exact absurd (by simp) hd
  · rintro ⟨m, rfl, hm⟩
    simp [hm]

/-- Reading on, in characters: `q` continues `p`, and what it adds starts what stands behind `p`. -/
theorem readsOn_iff (hk : '_' ∉ k.toList) : ReadsOn p k x q k' y ↔
    ∃ w ≠ [], q.toList = p.toList ++ w ∧
      '_' :: (k.toList ++ '_' :: x.toList) = w ++ '_' :: (k'.toList ++ '_' :: y.toList) := by
  have hunderscore : "_".toList = ['_'] := rfl
  constructor
  · rintro ⟨m, hq, hx⟩
    have hw : '_' :: (k.toList ++ m.toList) ≠ [] := List.cons_ne_nil _ _
    refine ⟨_, hw, ?_, (underscore_append_iff hw hk).2 ⟨m.toList, rfl, ?_⟩⟩
    · simp [hq, hunderscore]
    · simpa [hunderscore] using congrArg String.toList hx
  · rintro ⟨w, hw, hq, h⟩
    obtain ⟨m, rfl, hm⟩ := (underscore_append_iff hw hk).1 h
    refine ⟨String.ofList m, String.toList_inj.1 ?_, String.toList_inj.1 ?_⟩
    · simp [hq, hunderscore]
    · simpa [hunderscore] using hm

theorem ReadsOn.ne (h : ReadsOn p k x q k' y) : p ≠ q := by
  rintro rfl
  obtain ⟨m, hp, -⟩ := h
  have hlength := congrArg String.length hp
  have hone : "_".length = 1 := rfl
  simp only [String.length_append, hone] at hlength
  omega

/-- What `q` adds can be computed, so reading on can be decided. -/
theorem readsOn_iff_drop : ReadsOn p k x q k' y ↔ (p ++ "_" ++ k).toList.isPrefixOf q.toList ∧
    "_" ++ x = String.ofList (q.toList.drop (p ++ "_" ++ k).length) ++ "_" ++ k' ++ "_" ++ y := by
  rw [List.isPrefixOf_iff_prefix]
  constructor
  · rintro ⟨m, rfl, hx⟩
    refine ⟨⟨m.toList, String.toList_append.symm⟩, ?_⟩
    rw [String.toList_append, ← String.length_toList, List.drop_left, String.ofList_toList, hx]
  · rintro ⟨⟨m, hm⟩, hx⟩
    rw [← hm, ← String.length_toList, List.drop_left] at hx
    exact ⟨String.ofList m, String.toList_inj.1 (by rw [String.toList_append, String.toList_ofList, hm]), hx⟩

instance (p k x q k' y : String) : Decidable (ReadsOn p k x q k' y) := decidable_of_iff' _ readsOn_iff_drop

/-- **Two readings of one name** with different first parts: one of these goes on where the other ends. -/
theorem joined_eq_iff (hpq : p ≠ q) (hk : '_' ∉ k.toList) (hk' : '_' ∉ k'.toList) :
    p ++ "_" ++ k ++ "_" ++ x = q ++ "_" ++ k' ++ "_" ++ y ↔ ReadsOn p k x q k' y ∨ ReadsOn q k' y p k x := by
  have hunderscore : "_".toList = ['_'] := rfl
  have hne : p.toList ≠ q.toList := fun h => hpq (String.toList_inj.1 h)
  have hchars : p ++ "_" ++ k ++ "_" ++ x = q ++ "_" ++ k' ++ "_" ++ y ↔
      p.toList ++ '_' :: (k.toList ++ '_' :: x.toList) =
        q.toList ++ '_' :: (k'.toList ++ '_' :: y.toList) := by
    rw [← String.toList_inj]
    simp [hunderscore]
  rw [hchars, List.append_eq_append_iff, readsOn_iff hk, readsOn_iff hk']
  refine or_congr (exists_congr fun w => ?_) (exists_congr fun w => ?_)
  · refine ⟨fun ⟨hq, h⟩ => ⟨?_, hq, h⟩, fun ⟨_, hq, h⟩ => ⟨hq, h⟩⟩
    rintro rfl
    exact hne (by simpa using hq.symm)
  · refine ⟨fun ⟨hp, h⟩ => ⟨?_, hp, h⟩, fun ⟨_, hp, h⟩ => ⟨hp, h⟩⟩
    rintro rfl
    exact hne (by simpa using hp)

/-- Words without underscores are told apart from what follows them. -/
theorem joined_inj (hk : '_' ∉ k.toList) (hk' : '_' ∉ k'.toList) :
    p ++ "_" ++ k ++ "_" ++ x = p ++ "_" ++ k' ++ "_" ++ y ↔ k = k' ∧ x = y := by
  have hunderscore : "_".toList = ['_'] := rfl
  refine ⟨fun h => ?_, fun ⟨hkk, hxy⟩ => by rw [hkk, hxy]⟩
  have hchars : '_' :: (k.toList ++ '_' :: x.toList) = ('_' :: k'.toList) ++ '_' :: y.toList := by
    simpa [hunderscore, String.append_assoc] using congrArg String.toList h
  obtain ⟨m, hm, hxy⟩ := (underscore_append_iff (List.cons_ne_nil _ _) hk).1 hchars
  obtain ⟨-, hm⟩ := List.cons.inj hm
  cases m with
  | nil =>
    exact ⟨String.toList_inj.1 (by simpa using hm.symm), String.toList_inj.1 (by simpa using hxy)⟩
  | cons c m =>
    obtain ⟨rfl, -⟩ := List.cons.inj hxy
    exact absurd (by simp [hm]) hk'

end Identifier

open Entity Identifier

namespace Store

variable {g : Store} {s : Settings} {relevant : UidSet} {a p q u : Uid} {x y : String × Uid}

/-! ### Interfaces of parts -/

/-- The inputs and outputs of a part, each with the word that stands in front of its label. -/
def terminals (g : Store) (p : Uid) : List (String × Uid) :=
  (g.partInputs p).map ("input", ·) ++ (g.partOutputs p).map ("output", ·)

/-- The signal of an input or output of a part. -/
def terminalSignal (g : Store) (p : Uid) (x : String × Uid) : String :=
  ofSignal p (x.1 ++ "_" ++ ofText (g.labelOf x.2))

/-- The uid of `q` goes on where that of `p` ends, so that a signal of `p` reads like one of `q`. -/
def Confused (g : Store) (p q : Uid) : Prop :=
  ∃ x ∈ g.terminals p, ∃ y ∈ g.terminals q,
    ReadsOn (ofText p) x.1 (ofText (g.labelOf x.2)) (ofText q) y.1 (ofText (g.labelOf y.2))

/-- The parts are told apart by their names, and the inputs and outputs of a part by their labels. Each
interface has a single class. -/
structure ToldApart (g : Store) (a : Uid) : Prop where
  parts : ∀ p ∈ g.partsOf a, ∀ q ∈ g.partsOf a, ofText p = ofText q → p = q
  oneClass : ∀ p ∈ g.partsOf a, ∀ u ∈ g.interfacesOf (.single p) "" .forward, (g.classesOf u).size = 1
  inputs : ∀ p ∈ g.partsOf a, ∀ u ∈ g.partInputs p, ∀ v ∈ g.partInputs p,
    ofText (g.labelOf u) = ofText (g.labelOf v) → u = v
  outputs : ∀ p ∈ g.partsOf a, ∀ u ∈ g.partOutputs p, ∀ v ∈ g.partOutputs p,
    ofText (g.labelOf u) = ofText (g.labelOf v) → u = v

instance (g : Store) (p q : Uid) : Decidable (g.Confused p q) :=
  inferInstanceAs (Decidable (∃ x ∈ g.terminals p, ∃ y ∈ g.terminals q, _))

instance (g : Store) (a : Uid) : Decidable (g.ToldApart a) :=
  decidable_of_iff
    ((∀ p ∈ (g.partsOf a).toList, ∀ q ∈ (g.partsOf a).toList, ofText p = ofText q → p = q) ∧
      (∀ p ∈ (g.partsOf a).toList, ∀ u ∈ (g.interfacesOf (.single p) "" .forward).toList,
        (g.classesOf u).size = 1) ∧
      (∀ p ∈ (g.partsOf a).toList, ∀ u ∈ g.partInputs p, ∀ v ∈ g.partInputs p,
        ofText (g.labelOf u) = ofText (g.labelOf v) → u = v) ∧
      ∀ p ∈ (g.partsOf a).toList, ∀ u ∈ g.partOutputs p, ∀ v ∈ g.partOutputs p,
        ofText (g.labelOf u) = ofText (g.labelOf v) → u = v)
    ⟨fun ⟨hparts, hclass, hin, hout⟩ => ⟨hparts, hclass, hin, hout⟩,
      fun h => ⟨h.parts, h.oneClass, h.inputs, h.outputs⟩⟩

theorem mem_terminals : x ∈ g.terminals p ↔
    x.1 = "input" ∧ x.2 ∈ g.partInputs p ∨ x.1 = "output" ∧ x.2 ∈ g.partOutputs p := by
  obtain ⟨k, u⟩ := x
  simp [terminals, eq_comm, and_comm]

theorem underscore_notMem_word (hx : x ∈ g.terminals p) : '_' ∉ x.1.toList := by
  rcases mem_terminals.1 hx with ⟨hk, -⟩ | ⟨hk, -⟩ <;> simp [hk]

theorem nodup_terminals : (g.terminals p).Nodup := by
  have hword : ∀ k : String, Function.Injective fun u : Uid => (k, u) := fun k u v huv => (Prod.mk.inj huv).2
  refine List.nodup_append.2 ⟨(UidSet.nodup_toList _).map (hword _), (UidSet.nodup_toList _).map (hword _), ?_⟩
  rintro x hx y hy rfl
  obtain ⟨u, -, rfl⟩ := List.mem_map.1 hx
  obtain ⟨v, -, hv⟩ := List.mem_map.1 hy
  exact absurd (Prod.mk.inj hv).1 (by decide)

theorem terminalSignal_eq_iff : g.terminalSignal p x = g.terminalSignal q y ↔
    ofText p ++ "_" ++ x.1 ++ "_" ++ ofText (g.labelOf x.2) =
      ofText q ++ "_" ++ y.1 ++ "_" ++ ofText (g.labelOf y.2) := by
  simp only [terminalSignal, ofSignal, ofPart, String.append_assoc, ← String.toList_inj,
    String.toList_append, List.append_cancel_left_eq]

/-! ### The signals of a part -/

theorem map_name_declarations (hu : (g.classesOf u).size = 1) (name : String) :
    (g.declarations s name u).map Typed.name = [name] := by
  obtain ⟨c, hc⟩ := List.length_eq_one_iff.1 hu
  have hclasses : g.interfaceClassesOf u = [c] := hc
  rw [declarations, hclasses]
  rfl

theorem ToldApart.map_name_partSignals (h : g.ToldApart a) (hp : p ∈ g.partsOf a) :
    (g.partSignals s p).map Typed.name = (g.terminals p).map (g.terminalSignal p) := by
  have hone : ∀ (l : List Uid) (port : Uid → String),
      (∀ u ∈ l, u ∈ g.interfacesOf (.single p) "" .forward) →
      (l.flatMap fun u => g.declarations s (ofSignal p (port u)) u).map Typed.name =
        l.map fun u => ofSignal p (port u) := by
    intro l port hl
    rw [List.map_flatMap, List.map_eq_flatMap]
    exact List.flatMap_congr fun u hu => map_name_declarations (h.oneClass p hp u (hl u hu)) _
  rw [partSignals, List.map_append, hone _ _ fun u hu => (mem_partInputs.1 hu).2,
    hone _ _ fun u hu => (mem_partOutputs.1 hu).2, terminals, List.map_append, List.map_map, List.map_map]
  rfl

/-- In one part the signals of different interfaces have different names. -/
theorem ToldApart.nodup_partSignals (h : g.ToldApart a) (hp : p ∈ g.partsOf a) :
    ((g.terminals p).map (g.terminalSignal p)).Nodup := by
  refine nodup_terminals.map_on fun x hx y hy hxy => ?_
  obtain ⟨hword, hlabel⟩ := (joined_inj (underscore_notMem_word hx) (underscore_notMem_word hy)).1
    (terminalSignal_eq_iff.1 hxy)
  rcases mem_terminals.1 hx with ⟨hkx, hux⟩ | ⟨hkx, hux⟩ <;>
    rcases mem_terminals.1 hy with ⟨hky, huy⟩ | ⟨hky, huy⟩
  · exact Prod.ext hword (h.inputs p hp _ hux _ huy hlabel)
  · simp [hkx, hky] at hword
  · simp [hkx, hky] at hword
  · exact Prod.ext hword (h.outputs p hp _ hux _ huy hlabel)

/-- Two parts share the name of a signal just if one of them reads on from the other. -/
theorem disjoint_partSignals_iff (hpq : ofText p ≠ ofText q) :
    List.Disjoint ((g.terminals p).map (g.terminalSignal p)) ((g.terminals q).map (g.terminalSignal q)) ↔
      ¬ g.Confused p q ∧ ¬ g.Confused q p := by
  have hsame : ∀ x ∈ g.terminals p, ∀ y ∈ g.terminals q, g.terminalSignal p x = g.terminalSignal q y ↔
      ReadsOn (ofText p) x.1 (ofText (g.labelOf x.2)) (ofText q) y.1 (ofText (g.labelOf y.2)) ∨
        ReadsOn (ofText q) y.1 (ofText (g.labelOf y.2)) (ofText p) x.1 (ofText (g.labelOf x.2)) :=
    fun x hx y hy => terminalSignal_eq_iff.trans
      (joined_eq_iff hpq (underscore_notMem_word hx) (underscore_notMem_word hy))
  constructor
  · intro hdisjoint
    constructor
    · rintro ⟨x, hx, y, hy, hread⟩
      refine hdisjoint (List.mem_map_of_mem hx) ?_
      rw [(hsame x hx y hy).2 (.inl hread)]
      exact List.mem_map_of_mem hy
    · rintro ⟨y, hy, x, hx, hread⟩
      refine hdisjoint (List.mem_map_of_mem hx) ?_
      rw [(hsame x hx y hy).2 (.inr hread)]
      exact List.mem_map_of_mem hy
  · rintro ⟨hforth, hback⟩ name hp hq
    obtain ⟨x, hx, rfl⟩ := List.mem_map.1 hp
    obtain ⟨y, hy, hxy⟩ := List.mem_map.1 hq
    rcases (hsame x hx y hy).1 hxy.symm with hread | hread
    · exact hforth ⟨x, hx, y, hy, hread⟩
    · exact hback ⟨y, hy, x, hx, hread⟩

/-- **When signals have different names**: where the interfaces of parts are told apart, the signals of an
algorithm are, just if no part reads on from another one. -/
theorem nodup_signals_iff (h : g.ToldApart a) (s : Settings) (relevant : UidSet) :
    let d := g.design s relevant (g.context a)
    g.render s relevant a = d.text ∧
      ((d.signals.map Typed.name).Nodup ↔ ∀ p ∈ g.partsOf a, ∀ q ∈ g.partsOf a, ¬ g.Confused p q) := by
  intro d
  have hnames : d.signals.map Typed.name =
      (g.partsOf a).toList.flatMap fun p => (g.terminals p).map (g.terminalSignal p) := by
    rw [signals_design, List.map_flatMap]
    exact List.flatMap_congr fun p hp => h.map_name_partSignals hp
  have hown : ∀ p ∈ (g.partsOf a).toList, ((g.terminals p).map (g.terminalSignal p)).Nodup :=
    fun p hp => h.nodup_partSignals hp
  refine ⟨rfl, ?_⟩
  rw [hnames, List.nodup_flatMap, and_iff_right hown]
  constructor
  · intro hpairs p hp q hq hconfused
    have hpq : p ≠ q := by
      rintro rfl
      obtain ⟨_, -, _, -, hread⟩ := hconfused
      exact hread.ne rfl
    have hsymm : Std.Symm (Function.onFun List.Disjoint
        fun p => (g.terminals p).map (g.terminalSignal p)) := ⟨fun _ _ hd => List.disjoint_symm hd⟩
    have hdisjoint := hpairs.forall hp hq hpq
    exact ((disjoint_partSignals_iff fun heq => hpq (h.parts p hp q hq heq)).1 hdisjoint).1 hconfused
  · intro hnone
    refine (UidSet.nodup_toList _).pairwise_of_forall_ne fun p hp q hq hpq => ?_
    exact (disjoint_partSignals_iff fun heq => hpq (h.parts p hp q hq heq)).2 ⟨hnone p hp q hq, hnone q hq p hp⟩

theorem nodup_signals_pipeline :
    let d := pipeline.design .default ∅ (pipeline.context "Edges")
    pipeline.ToldApart "Edges" ∧ pipeline.render .default ∅ "Edges" = d.text ∧
      (d.signals.map Typed.name).Nodup ∧ d.signals.map Typed.name = [
        "component_Blur1_input_raw", "component_Blur1_output_smooth",
        "component_Sobel1_input_left", "component_Sobel1_output_edges"] := by
  intro d
  have hfacts : pipeline.ToldApart "Edges" ∧
      (∀ p ∈ (pipeline.partsOf "Edges").toList, ∀ q ∈ (pipeline.partsOf "Edges").toList,
        ¬ pipeline.Confused p q) ∧
      d.signals.map Typed.name = [
        "component_Blur1_input_raw", "component_Blur1_output_smooth",
        "component_Sobel1_input_left", "component_Sobel1_output_edges"] := by decide +kernel
  obtain ⟨hapart, hnone, hnames⟩ := hfacts
  obtain ⟨htext, hiff⟩ := nodup_signals_iff hapart .default ∅
  exact ⟨hapart, htext, hiff.2 hnone, hnames⟩

/-! ### Parts with confusing names -/

/-- `Top` has the parts `Edge1`, which needs `left1_input_row`, and `Edge1_input_left1`, which needs `row`. -/
def lookalikeParts : List Operation := [
  .createClass .algorithm "Top" "Top" ∅,
  .createClass .algorithm "Edge" "Edge" ∅,
  .instantiate (.single "Edge") "edge",
  .createClass .algorithm "Edge1_input_left" "Left" ∅,
  .instantiate (.single "Edge1_input_left") "left",
  .createClass .input "Pixel" "Pixel" ∅,
  .instantiate (.single "Pixel") "left1_input_row",
  .instantiate (.single "Pixel") "row",
  .needsInterface (.single "Edge1") (.single "Pixel1"),
  .needsInterface (.single "Edge1_input_left1") (.single "Pixel2"),
  .partOfNetwork ["Edge1", "Edge1_input_left1"] ["Top"]]

/-- Nothing in `Top` looks alike but the two signals. -/
theorem not_nodup_lookalikeParts :
    let g := lookalikeParts.foldl Operation.apply Store.blank
    let d := g.design .default (g.relevantDatatypes .default) (g.context "Top")
    Reached Operation.Modelling g ∧ "Top" ∈ g.allClasses .algorithm ∧ ¬ (g.partsOf "Top").isEmpty ∧
      g.ToldApart "Top" ∧
      (∀ p ∈ g.partsOf "Top", ∀ u ∈ g.interfacesOf (.single p) "" .forward,
        ¬ (u ∈ g.allMembers .input ∧ u ∈ g.allMembers .output)) ∧
      g.render .default (g.relevantDatatypes .default) "Top" = d.text ∧
      d.signals.map Typed.name =
        ["component_Edge1_input_left1_input_row", "component_Edge1_input_left1_input_row"] ∧
      ¬ (d.signals.map Typed.name).Nodup := by
  intro g d
  have hfacts : "Top" ∈ g.allClasses .algorithm ∧ ¬ (g.partsOf "Top").isEmpty ∧ g.ToldApart "Top" ∧
      (∀ p ∈ (g.partsOf "Top").toList, ∀ u ∈ (g.interfacesOf (.single p) "" .forward).toList,
        ¬ (u ∈ g.allMembers .input ∧ u ∈ g.allMembers .output)) ∧
      d.signals.map Typed.name =
        ["component_Edge1_input_left1_input_row", "component_Edge1_input_left1_input_row"] := by
    decide +kernel
  obtain ⟨hclass, hparts, hapart, hkinds, hnames⟩ := hfacts
  refine ⟨Reached.blank.foldl (by simp [lookalikeParts, Operation.Modelling]), hclass, hparts, hapart, hkinds,
    rfl, hnames, ?_⟩
  rw [hnames]
  decide

end Store

end DesignGraph
