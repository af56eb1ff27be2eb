import DesignGraph.Proofs.Entity.Declarations
import Mathlib.Data.Finset.Defs
import Mathlib.Data.Multiset.MapFold

/-! # What a text assigns and refers to

The text of an algorithm is split into lines, and its assignments and port maps are looked for among these.
If the suffix of types and the labels of the datatypes hold no line break, they are the ones that the facts of
the model ask for, and every name in them is declared.

* `Store.assignments_render`: the lines that assign something, told by the facts.
* `Store.references_declared`: all names in assignments and port maps are declared.
* `Store.not_assignsWires_spilled`, `Store.not_declaresNames_spilled`: a line break in the label of a datatype
  lets the rest of the label stand on a line of its own, which may assign anything. -/

namespace DesignGraph

open Identifier Text

namespace Entity

variable {name : String} {d : Design} {n : Netlist} {line : String} {lines rest : List String}

/-! ### Lines that refer to names -/

/-- A line of the architecture declares a signal of this name. -/
def DeclaresSignal (lines : List String) (name : String) : Prop :=
  ∃ type, signalLine ⟨name, type⟩ ∈ architectureBlock lines

/-- A line of the entity declares an input of this name. -/
def DeclaresInput (lines : List String) (name : String) : Prop :=
  ∃ type, inputLine ⟨name, type⟩ ∈ entityBlock lines

/-- A line of the entity declares an output of this name. -/
def DeclaresOutput (lines : List String) (name : String) : Prop :=
  ∃ type, outputLine ⟨name, type⟩ ∈ entityBlock lines

/-- The line is indented and binds a name. -/
def binds (line : String) : Bool :=
  line.toList.head? == some '\t' && startsWithName " => " line.toList.tail

/-- The lines of every port map for the standard signals. -/
def standardBindings : List String := ["\tclk => clk,", "\trst => rst"]

/-- What lines refer to by a name they declare. -/
structure DeclaresNames (lines : List String) : Prop where
  /-- An assignment is from an input to a signal, from a signal to an output, or from one signal to another. -/
  assignments : ∀ line ∈ lines, assigns line → ∃ w : Wire, line = assignmentLine w ∧
    (IsName w.target ∧ IsName w.source) ∧
      (DeclaresSignal lines w.target ∧ DeclaresInput lines w.source ∨
        DeclaresOutput lines w.target ∧ DeclaresSignal lines w.source ∨
        DeclaresSignal lines w.target ∧ DeclaresSignal lines w.source)
  /-- A port map is for signals, apart from the standard ones. -/
  bindings : ∀ line ∈ architectureBlock lines, binds line → line ∈ standardBindings ∨
    ∃ w : Wire, line = bindingLine w ∧ (IsName w.target ∧ IsName w.source) ∧ DeclaresSignal lines w.source

theorem firstWord_assignmentLine {w : Wire} (hw : IsName w.target) : firstWord (assignmentLine w) = w.target := by
  have hrest : (" <= " ++ (w.source ++ ";")).toList.takeWhile isNameChar = [] := by
    rw [String.toList_append]
    rfl
  rw [assignmentLine, String.append_assoc, String.append_assoc, firstWord, String.toList_append,
    List.takeWhile_append_of_pos hw, hrest, List.append_nil, String.ofList_toList]

theorem not_binds_of_isName (hn : IsName name) {rest : String} (hrest : rest.toList.head? ≠ some '\t') :
    binds (name ++ rest) = false := by
  have hhead : (name ++ rest).toList.head? ≠ some '\t' := by
    rw [String.toList_append]
    cases hl : name.toList with
    | nil => exact hrest
    | cons c l =>
      have hc : isNameChar c := hn c (hl ▸ List.mem_cons_self)
      rw [List.cons_append, List.head?_cons, Ne, Option.some.injEq]
      rintro rfl
      revert hc
      decide
  rw [binds, beq_false_of_ne hhead, Bool.false_and]

/-- Names are bound in the port maps of a composite only. -/
theorem Netlist.Named.eq_bindingLine (h : n.Named) (hline : line ∈ n.body) (hb : binds line) :
    line ∈ standardBindings ∨ ∃ i ∈ n.instantiations, ∃ w ∈ i.inputs ++ i.outputs, line = bindingLine w := by
  have hcaptions : ∀ line ∈ captions, binds line → line ∈ standardBindings := by decide +kernel
  have hspace : ∀ mark rest : String, mark.toList.head? = some ' ' ∨ mark.toList.head? = some ':' →
      (mark ++ rest).toList.head? ≠ some '\t' := by
    intro mark rest hmark
    rw [String.toList_append, List.head?_append]
    rcases hmark with hmark | hmark <;> simp [hmark]
  rcases n.mem_body hline with hc | ⟨t, -, rfl⟩ | ⟨w, hw, rfl⟩ | ⟨i, hi, rfl⟩ | hbinding
  · exact .inl (hcaptions line hc hb)
  · simp only [signalLine, String.append_assoc] at hb
    rw [binds, String.toList_append] at hb
    cases hb
  · rw [assignmentLine, String.append_assoc, String.append_assoc,
      not_binds_of_isName (h.targets w hw) (hspace _ _ (.inl rfl))] at hb
    cases hb
  · rw [Instantiation.opening, String.append_assoc,
      not_binds_of_isName (h.instantiations i hi) (hspace _ _ (.inr rfl))] at hb
    cases hb
  · exact .inr hbinding

namespace Design

variable {t : Typed}

theorem declaresSignal_of_mem (h : d.Named) (ht : t ∈ d.signals) : DeclaresSignal (d.lines ++ rest) t.name :=
  ⟨t.type, by
    rw [architectureBlock_lines h]
    exact signalLine_mem_architectureBody ht⟩

theorem declaresInput_of_mem (ht : t ∈ d.inputs) : DeclaresInput (d.lines ++ rest) t.name :=
  ⟨t.type, by
    rw [entityBlock_lines]
    exact inputLine_mem_portBody ht⟩

theorem declaresOutput_of_mem (ht : t ∈ d.outputs) : DeclaresOutput (d.lines ++ rest) t.name :=
  ⟨t.type, by
    rw [entityBlock_lines]
    exact outputLine_mem_portBody ht⟩

/-- Names are bound in the port maps of a design only. -/
theorem eq_bindingLine (h : d.Named) (hline : line ∈ d.architectureBody) (hb : binds line) :
    line ∈ standardBindings ∨ ∃ i ∈ d.instantiations, ∃ w ∈ i.inputs ++ i.outputs, line = bindingLine w := by
  unfold architectureBody at hline
  unfold instantiations
  cases hd : d.netlist with
  | none =>
    have hatomic : ∀ line ∈ atomicBody, binds line = false := by decide +kernel
    rw [hd] at hline
    rw [hatomic line hline] at hb
    cases hb
  | some n =>
    rw [hd] at hline
    exact (h.netlist n hd).eq_bindingLine hline hb

/-- The assignments of a text that is not broken up. -/
theorem filter_assigns_append (h : d.Named) :
    (d.lines ++ [""]).filter assigns = d.assignments.map assignmentLine := by
  rw [List.filter_append, filter_assigns_lines h]
  exact List.append_nil _

end Design

end Entity

open Entity

namespace Store

variable {g : Store} {s : Settings} {relevant : UidSet} {a p i o : Uid} {lines : List String} {b : LineBreaks}

/-! ### Assignments -/

/-- **The wires of an algorithm** are what these lines assign, one line for each: from the inputs of the
algorithm to the parts that own them as well, from the parts that own an output of the algorithm to it, and
between parts, to an input from an output that it depends on. -/
def AssignsWires (g : Store) (a : Uid) (lines : List String) : Prop :=
  ∃ (entering leaving : Finset (Uid × Uid)) (inner : Finset (Uid × Uid × Uid × Uid)),
    (∀ i p, (i, p) ∈ entering ↔
      (i ∈ g.allMembers .input ∧ g.Owns a i) ∧ p ∈ g.partsOf a ∧ g.Owns p i) ∧
    (∀ o p, (o, p) ∈ leaving ↔
      (o ∈ g.allMembers .output ∧ g.Owns a o) ∧ p ∈ g.partsOf a ∧ g.Owns p o) ∧
    (∀ p i o q, (p, i, o, q) ∈ inner ↔
      p ∈ g.partsOf a ∧ (i ∈ g.allMembers .input ∧ g.Owns p i) ∧
        (o ∈ g.allMembers .output ∧ g.Relates Vocabulary.dependsOn i o) ∧ q ∈ g.partsOf a ∧ g.Owns q o) ∧
    (lines.filter assigns : Multiset String) =
      entering.val.map (fun (i, p) => ofSignal p (g.inputPort i) ++ " <= " ++ g.inputPort i ++ ";") +
      leaving.val.map (fun (o, p) => g.outputPort o ++ " <= " ++ ofSignal p (g.outputPort o) ++ ";") +
      inner.val.map (fun (p, i, o, q) =>
        ofSignal p (g.inputPort i) ++ " <= " ++ ofSignal q (g.outputPort o) ++ ";")

/-- The assignments of a design are the wires of its algorithm. -/
theorem assignsWires_design (hH : Vocabulary.hasA ∈ g) (hP : Vocabulary.partOf ∈ g)
    (hD : Vocabulary.dependsOn ∈ g)
    (hlines : lines.filter assigns = (g.design s relevant (g.context a)).assignments.map assignmentLine) :
    g.AssignsWires a lines := by
  have hpairs : ∀ l : List Uid, l.Nodup → (pairs l (g.owners (g.partsOf a))).Nodup :=
    fun l hl => nodup_pairs hl fun _ => nodup_owners
  refine ⟨⟨↑(pairs (g.partInputs a) (g.owners (g.partsOf a))), ?_⟩,
    ⟨↑(pairs (g.partOutputs a) (g.owners (g.partsOf a))), ?_⟩, ⟨↑(g.dependencies (g.partsOf a)), ?_⟩,
    fun i p => Finset.mem_mk.trans (mem_pairs_owners hH hP mem_partInputs),
    fun o p => Finset.mem_mk.trans (mem_pairs_owners hH hP mem_partOutputs),
    fun p i o q => Finset.mem_mk.trans (mem_dependencies hH hP hD), ?_⟩
  · exact Multiset.coe_nodup.2 (hpairs _ (UidSet.nodup_toList _))
  · exact Multiset.coe_nodup.2 (hpairs _ (UidSet.nodup_toList _))
  · exact Multiset.coe_nodup.2 nodup_dependencies
  · rw [hlines, assignments_design]
    simp only [List.map_append, List.map_map, Multiset.map_coe, Multiset.coe_add]
    rfl

/-- The text of an algorithm falls into the lines of its design. -/
theorem lines_render (hsuffix : b.Free s.typeSuffix) (hlabels : ∀ u ∈ relevant, b.Free (g.labelOf u)) :
    b.lines (g.render s relevant a) = (g.design s relevant (g.context a)).lines ++ [""] :=
  (unbroken_design hsuffix hlabels).lines_text

/-- **Netlist extraction is sound and complete.** In every model, and however lines are told apart, the lines that
assign something in the text of an algorithm are those of its wires, if the suffix of types and the labels of the
datatypes hold no line break. -/
theorem assignments_render (b : LineBreaks) (g₀ : Store) (history : List Action) (s : Settings)
    (relevant : UidSet) (a : Uid) (hsuffix : b.Free s.typeSuffix) :
    let g := ((Ontology.ofStore .algorithms g₀).since history).store
    (∀ u ∈ relevant, b.Free (g.labelOf u)) → g.AssignsWires a (b.lines (g.render s relevant a)) := by
  intro g hlabels
  have hH : Vocabulary.hasA ∈ g := Ontology.mem_of_declared
    (show .relation Vocabulary.hasA [] [] "HAS-A" ∈ Level.algorithms.declarations by decide)
    (by decide) g₀ history
  have hP : Vocabulary.partOf ∈ g := Ontology.mem_of_declared
    (show .relation Vocabulary.partOf [] [] "PART-OF" ∈ Level.algorithms.declarations by decide)
    (by decide) g₀ history
  have hD : Vocabulary.dependsOn ∈ g := Ontology.mem_of_declared
    (show .relation Vocabulary.dependsOn [Vocabulary.input] [Vocabulary.output] "DEPENDS-ON" ∈
      Level.algorithms.declarations by decide)
    (by decide) g₀ history
  clear_value g
  rw [lines_render hsuffix hlabels]
  exact assignsWires_design hH hP hD (Design.filter_assigns_append (named_design g s relevant a))

open Hyperedge in
/-- The algorithm of two parts, with a datatype for its inputs. -/
def typedPipeline : Store where
  edges := pipeline.edges ++ [
    concept "Byte" "std_logic_vector(7 downto 0)",
    fact (numbered Vocabulary.isA 11) "IS-A" ["Byte"] [Vocabulary.datatype, "Source"] Vocabulary.isA]
  issued _ := 0
  distinct := by decide +kernel
  tidy := by decide +kernel

/-- The input of the algorithm is wired to the part that owns it. -/
theorem assignments_render_typedPipeline :
    let g := ((Ontology.ofStore .algorithms typedPipeline).since []).store
    let lines := LineBreaks.unicode.lines (g.render .default (g.relevantDatatypes .default) "Edges")
    "Byte" ∈ g.relevantDatatypes .default ∧ g.AssignsWires "Edges" lines ∧
      "component_Blur1_input_raw <= input_raw;" ∈ lines := by
  intro g lines
  have hfacts : ("Byte" ∈ g.relevantDatatypes .default ∧
      ∀ u ∈ (g.relevantDatatypes .default).toList, LineBreaks.unicode.Free (g.labelOf u)) ∧
      (Vocabulary.hasA ∈ g ∧ Vocabulary.partOf ∈ g) ∧
      ("Source1" ∈ g.allMembers .input ∧ "Blur1" ∈ g.partsOf "Edges") ∧
      ("Source1" ∈ g.interfacesOf (.single "Edges") "" .forward ∧
        "Source1" ∈ g.interfacesOf (.single "Blur1") "" .forward) ∧
      ofSignal "Blur1" (g.inputPort "Source1") ++ " <= " ++ g.inputPort "Source1" ++ ";" =
        "component_Blur1_input_raw <= input_raw;" := by decide +kernel
  obtain ⟨⟨hbyte, hlabels⟩, ⟨hH, hP⟩, ⟨hinput, hpart⟩, ⟨hown, howned⟩, hline⟩ := hfacts
  have hwires : g.AssignsWires "Edges" lines := assignments_render LineBreaks.unicode typedPipeline [] .default
    (g.relevantDatatypes .default) "Edges" (by decide) fun u hu => hlabels u (UidSet.mem_toList.2 hu)
  refine ⟨hbyte, hwires, ?_⟩
  obtain ⟨entering, leaving, inner, hentering, -, -, hassigned⟩ := hwires
  have hmem : ("Source1", "Blur1") ∈ entering :=
    (hentering _ _).2 ⟨⟨hinput, (mem_interfacesOf hH hP).1 hown⟩, hpart, (mem_interfacesOf hH hP).1 howned⟩
  have hassigns : "component_Blur1_input_raw <= input_raw;" ∈ (lines.filter assigns : Multiset String) := by
    rw [hassigned, Multiset.mem_add, Multiset.mem_add]
    exact .inl (.inl (Multiset.mem_map.2 ⟨_, hmem, hline⟩))
  exact (List.mem_filter.1 (Multiset.mem_coe.1 hassigns)).1

/-! ### A label of two lines -/

open Hyperedge in
/-- A composite with an input, whose datatype has a line break in its label. The part has no interfaces. -/
def spilled : Store where
  edges := vocabularyEdges ++ [
    concept "Top" "Top",
    fact (numbered Vocabulary.isA 6) "IS-A" ["Top"] [Vocabulary.algorithm] Vocabulary.isA,
    concept "Image" "Image",
    fact (numbered Vocabulary.isA 7) "IS-A" ["Image"] [Vocabulary.input] Vocabulary.isA,
    concept "Byte" "byte;\nghost <= phantom",
    fact (numbered Vocabulary.isA 8) "IS-A" ["Byte"] [Vocabulary.datatype, "Image"] Vocabulary.isA,
    concept "Image1" "raw",
    fact (numbered Vocabulary.instanceOf 1) "INSTANCE-OF" ["Image1"] ["Image"] Vocabulary.instanceOf,
    concept "Sub" "Sub",
    fact (numbered Vocabulary.isA 9) "IS-A" ["Sub"] [Vocabulary.algorithm] Vocabulary.isA,
    concept "Sub1" "sub",
    fact (numbered Vocabulary.instanceOf 2) "INSTANCE-OF" ["Sub1"] ["Sub"] Vocabulary.instanceOf,
    fact (numbered Vocabulary.partOfNetwork 1) "PART-OF" ["Sub1"] ["Top"] Vocabulary.partOfNetwork,
    fact (numbered Vocabulary.needs 1) "NEEDS" ["Top"] ["Image1"] Vocabulary.needs]
  issued _ := 0
  distinct := by decide +kernel
  tidy := by decide +kernel

/-- The model after it is opened. -/
def spilledModel : Store := ((Ontology.ofStore .algorithms spilled).since []).store

/-- The lines of its text. -/
def spilledLines : List String :=
  LineBreaks.lineFeeds.lines (spilledModel.render .default (spilledModel.relevantDatatypes .default) "Top")

theorem spilledLines_eq : spilledLines =
    (spilledModel.design .default (spilledModel.relevantDatatypes .default)
      (spilledModel.context "Top")).lines.flatMap LineBreaks.lineFeeds.lines ++ [""] :=
  LineBreaks.lines_intercalate (List.cons_ne_nil _ _)

/-- The rest of the label is one of the lines, and no line declares what it assigns to. -/
theorem mem_spilledLines : "ghost <= phantom;" ∈ spilledLines ∧
    ∀ line ∈ spilledLines, ∀ start ∈ ["signal ghost", "\tghost"], ¬ start.toList.isPrefixOf line.toList := by
  rw [spilledLines_eq]
  decide +kernel

theorem not_mem_spilledLines {start : String} (h : start ∈ ["signal ghost", "\tghost"]) (rest : String) :
    start ++ rest ∉ spilledLines := by
  intro hmem
  refine mem_spilledLines.2 _ hmem start h ?_
  rw [String.toList_append, List.isPrefixOf_iff_prefix]
  exact List.prefix_append _ _

/-- **A label may assign something**: the lines that assign something are not those of the wires in every text. -/
theorem not_assignsWires_spilled : ¬ ∀ (b : LineBreaks) (g₀ : Store) (history : List Action) (s : Settings)
    (a : Uid), let g := ((Ontology.ofStore .algorithms g₀).since history).store
      g.AssignsWires a (b.lines (g.render s (g.relevantDatatypes s) a)) := by
  intro h
  obtain ⟨entering, leaving, inner, -, -, -, hassigned⟩ := h LineBreaks.lineFeeds spilled [] .default "Top"
  have hassigns : "ghost <= phantom;" ∈ (spilledLines.filter assigns : Multiset String) :=
    Multiset.mem_coe.2 (List.mem_filter.2 ⟨mem_spilledLines.1, by decide⟩)
  -- a wire leads to a signal or to an output, and the names of these start in other ways
  have hhead : ∀ start rest : String, start.toList.head? = some 'c' ∨ start.toList.head? = some 'o' →
      start ++ rest ≠ "ghost <= phantom;" := by
    intro start rest hstart hline
    have hchar := congrArg (fun line : String => line.toList.head?) hline
    simp only [String.toList_append, List.head?_append] at hchar
    rcases hstart with hstart | hstart <;> simp [hstart] at hchar
  have hsum : (spilledLines.filter assigns : Multiset String) = _ := hassigned
  rw [hsum, Multiset.mem_add, Multiset.mem_add, Multiset.mem_map, Multiset.mem_map, Multiset.mem_map] at hassigns
  rcases hassigns with (⟨⟨i, p⟩, -, hline⟩ | ⟨⟨o, p⟩, -, hline⟩) | ⟨⟨p, i, o, q⟩, -, hline⟩
  · simp only [ofSignal, ofPart, String.append_assoc] at hline
    exact hhead _ _ (.inl rfl) hline
  · simp only [outputPort, ofOutput, String.append_assoc] at hline
    exact hhead _ _ (.inr rfl) hline
  · simp only [ofSignal, ofPart, String.append_assoc] at hline
    exact hhead _ _ (.inl rfl) hline

/-! ### Names -/

/-- The signals of a part are declared. -/
theorem declaresSignal_part {name : String} (hp : p ∈ g.partsOf a) (h : ∃ t ∈ g.partSignals s p, t.name = name) :
    DeclaresSignal ((g.design s relevant (g.context a)).lines ++ [""]) name := by
  obtain ⟨t, ht, rfl⟩ := h
  refine Design.declaresSignal_of_mem (named_design g s relevant a) ?_
  rw [signals_design]
  exact List.mem_flatMap.2 ⟨p, hp, ht⟩

theorem declaresSignal_input (hp : p ∈ g.partsOf a) (hi : i ∈ g.partInputs p) :
    DeclaresSignal ((g.design s relevant (g.context a)).lines ++ [""]) (ofSignal p (g.inputPort i)) :=
  declaresSignal_part hp (exists_partSignal_input hi s)

theorem declaresSignal_output (hp : p ∈ g.partsOf a) (ho : o ∈ g.partOutputs p) :
    DeclaresSignal ((g.design s relevant (g.context a)).lines ++ [""]) (ofSignal p (g.outputPort o)) :=
  declaresSignal_part hp (exists_partSignal_output ho s)

theorem declaresInput_port (hi : i ∈ g.partInputs a) :
    DeclaresInput ((g.design s relevant (g.context a)).lines ++ [""]) (g.inputPort i) := by
  obtain ⟨t, ht, hname⟩ := exists_input_port hi
  rw [← hname]
  exact Design.declaresInput_of_mem ht

theorem declaresOutput_port (ho : o ∈ g.partOutputs a) :
    DeclaresOutput ((g.design s relevant (g.context a)).lines ++ [""]) (g.outputPort o) := by
  obtain ⟨t, ht, hname⟩ := exists_output_port ho
  rw [← hname]
  exact Design.declaresOutput_of_mem ht

/-- Both ends of an assignment are declared, an input of the algorithm as an input and an output as an output. -/
theorem declared_of_mem_assignments {w : Wire} (hw : w ∈ (g.design s relevant (g.context a)).assignments) :
    let lines := (g.design s relevant (g.context a)).lines ++ [""]
    DeclaresSignal lines w.target ∧ DeclaresInput lines w.source ∨
      DeclaresOutput lines w.target ∧ DeclaresSignal lines w.source ∨
      DeclaresSignal lines w.target ∧ DeclaresSignal lines w.source := by
  have hknown : ∀ p ∈ g.partsOf a, p ∈ g := fun p => mem_of_mem_partsOf
  rw [assignments_design] at hw
  simp only [List.mem_append, List.mem_map, Prod.exists, dependencies, mem_pairs] at hw
  rcases hw with (⟨i, p, ⟨hi, hp⟩, rfl⟩ | ⟨o, p, ⟨ho, hp⟩, rfl⟩) | ⟨p, i, o, q, ⟨hp, hi, ho, hq⟩, rfl⟩
  · obtain ⟨hp, hown⟩ := (mem_owners hknown).1 hp
    exact .inl ⟨declaresSignal_input hp (mem_partInputs.2 ⟨(mem_partInputs.1 hi).1, hown⟩),
      declaresInput_port hi⟩
  · obtain ⟨hp, hown⟩ := (mem_owners hknown).1 hp
    exact .inr (.inl ⟨declaresOutput_port ho,
      declaresSignal_output hp (mem_partOutputs.2 ⟨(mem_partOutputs.1 ho).1, hown⟩)⟩)
  · obtain ⟨hq, hown⟩ := (mem_owners hknown).1 hq
    have houtput : o ∈ g.allMembers .output := (UidSet.mem_inter.1 ho).2
    exact .inr (.inr ⟨declaresSignal_input hp hi, declaresSignal_output hq (mem_partOutputs.2 ⟨houtput, hown⟩)⟩)

/-- What a port map binds is made of names, and declared as a signal. -/
theorem declared_of_mem_instantiations {c : Instantiation} {w : Wire}
    (hc : c ∈ (g.design s relevant (g.context a)).instantiations) (hw : w ∈ c.inputs ++ c.outputs) :
    (IsName w.target ∧ IsName w.source) ∧
      DeclaresSignal ((g.design s relevant (g.context a)).lines ++ [""]) w.source := by
  obtain ⟨p, hp, k, -, rfl⟩ := mem_instantiations.1 hc
  rcases List.mem_append.1 hw with hw | hw
  · obtain ⟨i, hi, rfl⟩ := List.mem_map.1 hw
    exact ⟨⟨g.isName_inputPort i, isName_ofSignal p (g.isName_inputPort i)⟩, declaresSignal_input hp hi⟩
  · obtain ⟨o, ho, rfl⟩ := List.mem_map.1 hw
    exact ⟨⟨g.isName_outputPort o, isName_ofSignal p (g.isName_outputPort o)⟩, declaresSignal_output hp ho⟩

/-- **Everything referenced is declared.** However lines are told apart, if the suffix of types and the labels of
the datatypes hold no line break, the text of an algorithm declares what it refers to: the signals in
assignments and in port maps in the architecture, the ports that are read as inputs of the entity, and those
that are driven as outputs. -/
theorem references_declared (b : LineBreaks) (g : Store) (s : Settings) (relevant : UidSet) (a : Uid)
    (hsuffix : b.Free s.typeSuffix) (hlabels : ∀ u ∈ relevant, b.Free (g.labelOf u)) :
    DeclaresNames (b.lines (g.render s relevant a)) := by
  have hnamed := named_design g s relevant a
  rw [lines_render hsuffix hlabels]
  refine ⟨fun line hline hassigns => ?_, fun line hline hbinds => ?_⟩
  · have hmem := List.mem_filter.2 ⟨hline, hassigns⟩
    rw [Design.filter_assigns_append hnamed] at hmem
    obtain ⟨w, hw, rfl⟩ := List.mem_map.1 hmem
    exact ⟨w, rfl, isName_assignments_design hw, declared_of_mem_assignments hw⟩
  · rw [Design.architectureBlock_lines hnamed] at hline
    refine (Design.eq_bindingLine hnamed hline hbinds).imp id ?_
    rintro ⟨c, hc, w, hw, rfl⟩
    obtain ⟨hnames, hdeclared⟩ := declared_of_mem_instantiations hc hw
    exact ⟨w, rfl, hnames, hdeclared⟩

/-- The names in the assignment of the input are declared. -/
theorem references_declared_typedPipeline :
    let lines := LineBreaks.unicode.lines
      (typedPipeline.render .default (typedPipeline.relevantDatatypes .default) "Edges")
    "Byte" ∈ typedPipeline.relevantDatatypes .default ∧ DeclaresNames lines ∧
      "component_Sobel1_input_left <= component_Blur1_output_smooth;" ∈ lines := by
  intro lines
  have hsuffix : LineBreaks.unicode.Free Settings.default.typeSuffix := by decide
  have hfacts : ("Byte" ∈ typedPipeline.relevantDatatypes .default ∧
      ∀ u ∈ (typedPipeline.relevantDatatypes .default).toList, LineBreaks.unicode.Free (typedPipeline.labelOf u)) ∧
      (⟨"component_Sobel1_input_left", "component_Blur1_output_smooth"⟩ : Wire) ∈ (typedPipeline.design .default
        (typedPipeline.relevantDatatypes .default) (typedPipeline.context "Edges")).assignments := by
    decide +kernel
  obtain ⟨⟨hbyte, hlabels⟩, hwire⟩ := hfacts
  have hlabels : ∀ u ∈ typedPipeline.relevantDatatypes .default, LineBreaks.unicode.Free (typedPipeline.labelOf u) :=
    fun u hu => hlabels u (UidSet.mem_toList.2 hu)
  refine ⟨hbyte, references_declared LineBreaks.unicode typedPipeline .default _ "Edges" hsuffix hlabels, ?_⟩
  have hline := List.mem_map_of_mem (f := assignmentLine) hwire
  rw [← Design.filter_assigns_append (named_design ..), ← lines_render hsuffix hlabels] at hline
  exact (List.mem_filter.1 hline).1

/-- **A label may refer to anything**: not every text of a composite declares what it refers to. -/
theorem not_declaresNames_spilled : ¬ ∀ (b : LineBreaks) (g₀ : Store) (history : List Action) (s : Settings)
    (a : Uid), let g := ((Ontology.ofStore .algorithms g₀).since history).store
      ¬ (g.partsOf a).isEmpty → DeclaresNames (b.lines (g.render s (g.relevantDatatypes s) a)) := by
  intro h
  have hparts : ¬ (spilledModel.partsOf "Top").isEmpty := by decide +kernel
  have hnames : DeclaresNames spilledLines := h LineBreaks.lineFeeds spilled [] .default "Top" hparts
  obtain ⟨w, hline, ⟨htarget, -⟩, hdeclared⟩ := hnames.assignments _ mem_spilledLines.1 (by decide)
  have hname : w.target = "ghost" := by
    rw [← firstWord_assignmentLine htarget, ← hline]
    decide
  have hsignal : ¬ DeclaresSignal spilledLines w.target := by
    rintro ⟨type, hmem⟩
    rw [hname, signalLine, String.append_assoc, String.append_assoc] at hmem
    exact not_mem_spilledLines List.mem_cons_self _ (mem_of_mem_block hmem)
  have houtput : ¬ DeclaresOutput spilledLines w.target := by
    rintro ⟨type, hmem⟩
    rw [hname, outputLine, String.append_assoc, String.append_assoc] at hmem
    exact not_mem_spilledLines (List.mem_cons_of_mem _ List.mem_cons_self) _ (mem_of_mem_block hmem)
  rcases hdeclared with ⟨hin, -⟩ | ⟨hout, -⟩ | ⟨hbetween, -⟩
  · exact hsignal hin
  · exact houtput hout
  · exact hsignal hbetween

end Store

end DesignGraph
