import DesignGraph.Proofs.Entity.Netlist
import DesignGraph.Proofs.Entity.Reference
import DesignGraph.Proofs.Entity.Unbroken

/-! # How many declarations a text holds

A line declares a port, declares a signal or instantiates an entity by how it starts (`declaresPort`,
`declaresSignal`, `instantiates`). No label or uid can make another line start like that, and none can break
a line up or join two of them. So the declarations in the text of an algorithm can be counted in the graph
(`Store.declarations_render`). -/

namespace DesignGraph

open Identifier Text

namespace Entity

variable {name : String} {d : Design} {n : Netlist}

/-! ### Lines that declare something -/

/-- The line is indented and gives a name a direction. -/
def declaresPort (line : String) : Bool :=
  line.toList.head? == some '\t' &&
    (startsWithName " : in " line.toList.tail || startsWithName " : out " line.toList.tail)

/-- Behind the word for signals and a blank the line gives a name a type. -/
def declaresSignal (line : String) : Bool :=
  let rest := line.toList.dropWhile isNameChar
  firstWord line == "signal" && rest.head? == some ' ' && startsWithName " : " rest.tail

/-- The line makes an instance of an entity under a name. -/
def instantiates (line : String) : Bool := startsWithName ": entity work." line.toList

theorem declaresPort_inputLine {t : Typed} (ht : IsName t.name) : declaresPort (inputLine t) := by
  have hchars : (inputLine t).toList =
      '\t' :: (t.name.toList ++ (" : in ".toList ++ (t.type ++ ";").toList)) := by
    simp [inputLine]
  rw [declaresPort, hchars, List.tail_cons, startsWithName_append ht, startsWithName_append ht]
  rfl

theorem declaresPort_outputLine {t : Typed} (ht : IsName t.name) : declaresPort (outputLine t) := by
  have hchars : (outputLine t).toList =
      '\t' :: (t.name.toList ++ (" : out ".toList ++ (t.type ++ ";").toList)) := by
    simp [outputLine]
  rw [declaresPort, hchars, List.tail_cons, startsWithName_append ht, startsWithName_append ht]
  rfl

theorem declaresSignal_signalLine {t : Typed} (ht : IsName t.name) : declaresSignal (signalLine t) := by
  have hchars : (signalLine t).toList =
      "signal".toList ++ (' ' :: (t.name.toList ++ (" : ".toList ++ (t.type ++ ";").toList))) := by
    simp [signalLine]
  have hword : IsName "signal" := by decide
  have hrest : (signalLine t).toList.dropWhile isNameChar =
      ' ' :: (t.name.toList ++ (" : ".toList ++ (t.type ++ ";").toList)) := by
    rw [hchars, List.dropWhile_append_of_pos hword]
    rfl
  have hfirst : firstWord (signalLine t) = "signal" := by
    rw [firstWord, hchars, List.takeWhile_append_of_pos hword]
    rfl
  rw [declaresSignal, hfirst, hrest]
  simp only [List.tail_cons, startsWithName_append ht]
  rfl

/-- A line that starts with a name and goes on otherwise than the declaration of a signal is none. -/
theorem not_declaresSignal_append {rest : String} {c : Char} {l : List Char} (hn : IsName name)
    (hrest : rest.toList = c :: l) (hc : isNameChar c = false) (hl : startsWithName " : " l = false) :
    declaresSignal (name ++ rest) = false := by
  have hbehind : (name ++ rest).toList.dropWhile isNameChar = c :: l := by
    rw [String.toList_append, List.dropWhile_append_of_pos hn, hrest, List.dropWhile_cons_of_neg (by simp [hc])]
  simp only [declaresSignal, hbehind, List.tail_cons, hl, Bool.and_false]

theorem not_declaresSignal_tab (rest : String) : declaresSignal ("\t" ++ rest) = false := by
  rw [declaresSignal, firstWord, String.toList_append]
  rfl

theorem not_declaresSignal_assignmentLine {w : Wire} (hw : IsName w.target) :
    declaresSignal (assignmentLine w) = false := by
  rw [assignmentLine, String.append_assoc, String.append_assoc]
  exact not_declaresSignal_append hw (String.toList_append ..) rfl rfl

theorem instantiates_append (hn : IsName name) (rest : String) :
    instantiates (name ++ rest) = instantiates rest := by
  rw [instantiates, instantiates, String.toList_append, startsWithName_append hn]

/-! ### Counting declarations -/

/-- **The declarations of ports** in the entity are those of its inputs and outputs, and of the two standard
signals. -/
theorem Design.countP_portBody (h : ∀ t ∈ d.ports, IsName t.name) :
    d.portBody.countP declaresPort = d.inputs.length + d.outputs.length + 2 := by
  obtain ⟨hin, hout⟩ := List.forall_mem_append.1 h
  have hinputs : (d.inputs.map inputLine).countP declaresPort = d.inputs.length := by
    rw [List.countP_map]
    exact List.countP_eq_length.2 fun t ht => declaresPort_inputLine (hin t ht)
  have houtputs : (d.outputs.map outputLine).countP declaresPort = d.outputs.length := by
    rw [List.countP_map]
    exact List.countP_eq_length.2 fun t ht => declaresPort_outputLine (hout t ht)
  have hfront : ["port(", "", "\t-- Inputs --"].countP declaresPort = 0 := rfl
  have hmiddle : ["", "\t-- Outputs --"].countP declaresPort = 0 := rfl
  have hback : ["", "\t-- Standard Signals --", "\tclk : in std_logic;", "\trst : in std_logic", ");"].countP
      declaresPort = 2 := rfl
  simp only [portBody, List.countP_append, hinputs, houtputs, hfront, hmiddle, hback]
  omega

namespace Netlist.Named

variable (h : n.Named)

include h

theorem countP_declaresSignal : n.body.countP declaresSignal = n.signals.length := by
  have hsignals : (n.signals.countP fun t => declaresSignal (signalLine t)) = n.signals.length :=
    List.countP_eq_length.2 fun t ht => declaresSignal_signalLine (h.signals t ht)
  have hinstantiations : (n.instantiations.countP fun i => declaresSignal i.opening) = 0 := by
    refine List.countP_eq_zero.2 fun i hi => Bool.eq_false_iff.1 ?_
    rw [Instantiation.opening, String.append_assoc]
    exact not_declaresSignal_append (h.instantiations i hi) (String.toList_append ..) rfl rfl
  have hcaptions : ∀ line ∈ captions, declaresSignal line = false := by decide +kernel
  have hbindings : ∀ w, declaresSignal (bindingLine w) = false := by
    intro w
    simp only [bindingLine, String.append_assoc, not_declaresSignal_tab]
  have hassignments : ∀ w ∈ n.assignments, declaresSignal (assignmentLine w) = false :=
    fun w hw => not_declaresSignal_assignmentLine (h.targets w hw)
  rw [countP_body declaresSignal n hcaptions hbindings hassignments, hsignals, hinstantiations, Nat.add_zero]

theorem countP_instantiates : n.body.countP instantiates = n.instantiations.length := by
  have hsignals : (n.signals.countP fun t => instantiates (signalLine t)) = 0 := by
    refine List.countP_eq_zero.2 fun t _ => Bool.eq_false_iff.1 ?_
    simp only [signalLine, String.append_assoc]
    rw [instantiates, String.toList_append]
    rfl
  have hinstantiations : (n.instantiations.countP fun i => instantiates i.opening) =
      n.instantiations.length := by
    refine List.countP_eq_length.2 fun i hi => ?_
    rw [Instantiation.opening, String.append_assoc, instantiates_append (h.instantiations i hi), instantiates,
      String.toList_append]
    rfl
  have hcaptions : ∀ line ∈ captions, instantiates line = false := by decide +kernel
  have hbindings : ∀ w, instantiates (bindingLine w) = false := by
    intro w
    simp only [bindingLine, String.append_assoc]
    rw [instantiates, String.toList_append]
    rfl
  have hassignments : ∀ w ∈ n.assignments, instantiates (assignmentLine w) = false := by
    intro w hw
    rw [assignmentLine, String.append_assoc, String.append_assoc, instantiates_append (h.targets w hw),
      instantiates, String.toList_append]
    rfl
  rw [countP_body instantiates n hcaptions hbindings hassignments, hsignals, hinstantiations, Nat.zero_add]

end Netlist.Named

namespace Design

/-- **The declarations of signals** in the architecture are those of the netlist. -/
theorem countP_declaresSignal (h : d.Named) : d.architectureBody.countP declaresSignal = d.signals.length := by
  unfold architectureBody signals
  cases hd : d.netlist with
  | none =>
    have hatomic : atomicBody.countP declaresSignal = 0 := by decide +kernel
    exact hatomic
  | some n => exact (h.netlist n hd).countP_declaresSignal

/-- **The instantiations** in the architecture are those of the netlist. -/
theorem countP_instantiates (h : d.Named) :
    d.architectureBody.countP instantiates = d.instantiations.length := by
  unfold architectureBody instantiations
  cases hd : d.netlist with
  | none =>
    have hatomic : atomicBody.countP instantiates = 0 := by decide +kernel
    exact hatomic
  | some n => exact (h.netlist n hd).countP_instantiates

variable {t : Typed}

theorem inputLine_mem_portBody (ht : t ∈ d.inputs) : inputLine t ∈ d.portBody := by
  have hline : inputLine t ∈ d.inputs.map inputLine := List.mem_map_of_mem ht
  simp only [portBody, List.mem_append, hline, true_or, or_true]

theorem outputLine_mem_portBody (ht : t ∈ d.outputs) : outputLine t ∈ d.portBody := by
  have hline : outputLine t ∈ d.outputs.map outputLine := List.mem_map_of_mem ht
  simp only [portBody, List.mem_append, hline, true_or, or_true]

theorem signalLine_mem_architectureBody (ht : t ∈ d.signals) : signalLine t ∈ d.architectureBody := by
  unfold signals at ht
  unfold architectureBody
  cases hd : d.netlist with
  | none =>
    rw [hd] at ht
    cases ht
  | some n =>
    rw [hd] at ht
    have hline : signalLine t ∈ n.signals.map signalLine := List.mem_map_of_mem ht
    simp only [Option.elim, Netlist.body, List.mem_append, hline, true_or, or_true]

end Design

end Entity

open Entity

namespace Store

variable {g : Store} {s : Settings} {relevant : UidSet} {a : Uid}

/-! ### How many declarations there are -/

/-- The number of classes of some interface instances, each counted for every instance that has it. -/
def classCount (g : Store) (us : List Uid) : ℕ := (us.map fun u => (g.classesOf u).size).sum

theorem length_flatMap_declarations (name : Uid → String) (us : List Uid) :
    (us.flatMap fun u => g.declarations s (name u) u).length = g.classCount us := by
  rw [List.length_flatMap, classCount]
  refine congrArg List.sum (List.map_congr_left fun u _ => ?_)
  exact List.length_map ..

theorem length_signals_design : (g.design s relevant (g.context a)).signals.length =
    ((g.partsOf a).toList.map fun p => g.classCount (g.partInputs p) + g.classCount (g.partOutputs p)).sum := by
  rw [signals_design, List.length_flatMap]
  refine congrArg List.sum (List.map_congr_left fun p _ => ?_)
  rw [partSignals, List.length_append, length_flatMap_declarations, length_flatMap_declarations]

theorem length_instantiations_design : (g.design s relevant (g.context a)).instantiations.length =
    ((g.partsOf a).toList.map fun p => (g.partClasses p).size).sum := by
  rw [instantiations_design, List.length_flatMap]
  exact congrArg List.sum (List.map_congr_left fun p _ => List.length_map ..)

theorem isName_ports : ∀ t ∈ (g.design s relevant (g.context a)).ports, IsName t.name := by
  refine List.forall_mem_append.2 ⟨fun t ht => ?_, fun t ht => ?_⟩
  · obtain ⟨i, -, ht⟩ := List.mem_flatMap.1 ht
    obtain ⟨c, -, rfl⟩ := List.mem_map.1 ht
    exact g.isName_inputPort i
  · obtain ⟨o, -, ht⟩ := List.mem_flatMap.1 ht
    obtain ⟨c, -, rfl⟩ := List.mem_map.1 ht
    exact g.isName_outputPort o

/-- An instance has a class, so that its name is declared with a type at all. -/
theorem exists_class {root : ClassRoot} {u : Uid} (hu : u ∈ g.allMembers root) : ∃ c, c ∈ g.classesOf u := by
  obtain ⟨-, c, hc, -⟩ := mem_allMembers.1 hu
  exact ⟨c, hc⟩

/-- **How many declarations a text holds.** However lines are told apart, if the suffix of types and the labels
of datatypes hold no line break, the only breaks in the text of an algorithm are line feeds. Its entity then
declares as many ports as its inputs and outputs have classes, and two more. Its architecture declares as many
signals as the inputs and outputs of the parts have classes, and instantiates as many entities as the parts
have algorithm classes, which is none at all without parts. Every input and output has a class and is declared
with its type. -/
theorem declarations_render (b : LineBreaks) (g : Store) (s : Settings) (a : Uid)
    (hsuffix : b.Free s.typeSuffix) (hlabels : ∀ u ∈ g.allClasses .datatype, b.Free (g.labelOf u)) :
    let text := g.render s (g.relevantDatatypes s) a
    let lines := b.lines text
    (∀ c ∈ text.toList, b.ends c → c = '\n') ∧
    (entityBlock lines).countP declaresPort =
      g.classCount (g.partInputs a) + g.classCount (g.partOutputs a) + 2 ∧
    (architectureBlock lines).countP declaresSignal =
      ((g.partsOf a).toList.map fun p => g.classCount (g.partInputs p) + g.classCount (g.partOutputs p)).sum ∧
    (architectureBlock lines).countP instantiates =
      ((g.partsOf a).toList.map fun p => (g.partClasses p).size).sum ∧
    (∀ i ∈ g.partInputs a, ∃ c ∈ g.classesOf i,
      inputLine ⟨g.inputPort i, g.typeName s c⟩ ∈ entityBlock lines) ∧
    (∀ o ∈ g.partOutputs a, ∃ c ∈ g.classesOf o,
      outputLine ⟨g.outputPort o, g.typeName s c⟩ ∈ entityBlock lines) ∧
    ∀ p ∈ g.partsOf a,
      (∀ i ∈ g.partInputs p, ∃ c ∈ g.classesOf i,
        signalLine ⟨ofSignal p (g.inputPort i), g.typeName s c⟩ ∈ architectureBlock lines) ∧
      (∀ o ∈ g.partOutputs p, ∃ c ∈ g.classesOf o,
        signalLine ⟨ofSignal p (g.outputPort o), g.typeName s c⟩ ∈ architectureBlock lines) := by
  intro text lines
  have hnamed := named_design g s (g.relevantDatatypes s) a
  have hunbroken : (g.design s (g.relevantDatatypes s) (g.context a)).Unbroken b :=
    unbroken_design hsuffix fun u hu => hlabels u (mem_allClasses_of_mem_relevantDatatypes hu)
  have hlines : lines = (g.design s (g.relevantDatatypes s) (g.context a)).lines ++ [""] := hunbroken.lines_text
  rw [hlines, Design.entityBlock_lines, Design.architectureBlock_lines hnamed]
  refine ⟨LineBreaks.eq_lineFeed_of_mem (List.cons_ne_nil _ _) hunbroken.free_lines, ?_, ?_, ?_, fun i hi => ?_,
    fun o ho => ?_, fun p hp => ⟨fun i hi => ?_, fun o ho => ?_⟩⟩
  · have hinputs := length_flatMap_declarations (g := g) (s := s) g.inputPort (g.partInputs a)
    have houtputs := length_flatMap_declarations (g := g) (s := s) g.outputPort (g.partOutputs a)
    rw [Design.countP_portBody isName_ports, ← hinputs, ← houtputs]
    rfl
  · rw [Design.countP_declaresSignal hnamed, length_signals_design]
  · rw [Design.countP_instantiates hnamed, length_instantiations_design]
  · obtain ⟨c, hc⟩ := exists_class (mem_partInputs.1 hi).1
    refine ⟨c, hc, Design.inputLine_mem_portBody ?_⟩
    exact List.mem_flatMap.2 ⟨i, hi, mem_declarations.2 ⟨c, hc, rfl⟩⟩
  · obtain ⟨c, hc⟩ := exists_class (mem_partOutputs.1 ho).1
    refine ⟨c, hc, Design.outputLine_mem_portBody ?_⟩
    exact List.mem_flatMap.2 ⟨o, ho, mem_declarations.2 ⟨c, hc, rfl⟩⟩
  · obtain ⟨c, hc⟩ := exists_class (mem_partInputs.1 hi).1
    refine ⟨c, hc, Design.signalLine_mem_architectureBody ?_⟩
    rw [signals_design]
    refine List.mem_flatMap.2 ⟨p, hp, List.mem_append_left _ ?_⟩
    exact List.mem_flatMap.2 ⟨i, hi, mem_declarations.2 ⟨c, hc, rfl⟩⟩
  · obtain ⟨c, hc⟩ := exists_class (mem_partOutputs.1 ho).1
    refine ⟨c, hc, Design.signalLine_mem_architectureBody ?_⟩
    rw [signals_design]
    refine List.mem_flatMap.2 ⟨p, hp, List.mem_append_right _ ?_⟩
    exact List.mem_flatMap.2 ⟨o, ho, mem_declarations.2 ⟨c, hc, rfl⟩⟩

/-- The algorithm of two parts, with an input and a class whose labels look like lines of a text. -/
def unruly : Store :=
  (pipeline.setLabel "Source1" "raw : in bit;\n\tleft").setLabel "Source"
    "Image;\nend Edges;\u2028signal x : bit"

theorem declarations_render_unruly :
    let lines := LineBreaks.unicode.lines (unruly.render .default (unruly.relevantDatatypes .default) "Edges")
    LineBreaks.unicode.Free Settings.default.typeSuffix ∧
      (∀ u ∈ unruly.allClasses .datatype, LineBreaks.unicode.Free (unruly.labelOf u)) ∧
      (entityBlock lines).countP declaresPort = 4 ∧ (architectureBlock lines).countP declaresSignal = 4 ∧
      (architectureBlock lines).countP instantiates = 2 := by
  intro lines
  have hsuffix : LineBreaks.unicode.Free Settings.default.typeSuffix := by decide
  have hfacts : (∀ u ∈ (unruly.allClasses .datatype).toList, LineBreaks.unicode.Free (unruly.labelOf u)) ∧
      unruly.classCount (unruly.partInputs "Edges") + unruly.classCount (unruly.partOutputs "Edges") + 2 = 4 ∧
      ((unruly.partsOf "Edges").toList.map fun p =>
        unruly.classCount (unruly.partInputs p) + unruly.classCount (unruly.partOutputs p)).sum = 4 ∧
      ((unruly.partsOf "Edges").toList.map fun p => (unruly.partClasses p).size).sum = 2 := by decide +kernel
  obtain ⟨hlabels, hcountPorts, hcountSignals, hcountParts⟩ := hfacts
  obtain ⟨-, hports, hsignals, hinstances, -⟩ :=
    declarations_render LineBreaks.unicode unruly .default "Edges" hsuffix hlabels
  exact ⟨hsuffix, hlabels, hports.trans hcountPorts, hsignals.trans hcountSignals, hinstances.trans hcountParts⟩

end Store

end DesignGraph
