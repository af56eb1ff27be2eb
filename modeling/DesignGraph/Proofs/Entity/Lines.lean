import DesignGraph.Entity.Extract
import DesignGraph.Proofs.Identifier

/-! # The lines of a design that assign something

A line assigns something if it starts with a name and goes on with the arrow of an assignment (`assigns`).
Of all lines of a design these are the ones that are written for the wires of its netlist: every other line
starts in a way of its own (`Design.filter_assigns_lines`). The only thing to ask of a design is that it is put
together from names (`Design.Named`), as those that are made of an algorithm are (`Store.named_design`).

This is about the lines that a text is put together from. The text falls into the same lines if the suffix of
types and the labels of datatypes hold no line break (`Design.Unbroken.lines_text`). A break in one of these
makes further lines, and they may look like any others. -/

namespace DesignGraph

open Identifier

namespace Entity

/-- The line starts with a name that something is assigned to. -/
def assigns (line : String) : Bool := " <= ".toList.isPrefixOf (line.toList.dropWhile isNameChar)

/-- The wires that are assignments, in the order of their lines. -/
def Netlist.assignments (n : Netlist) : List Wire := n.fromInputs ++ n.toOutputs ++ n.between

/-- The assignments of the architecture. -/
def Design.assignments (d : Design) : List Wire := d.netlist.elim [] Netlist.assignments

/-- What lines of the architecture start with, or name first, are names. -/
structure Netlist.Named (n : Netlist) : Prop where
  signals : ∀ t ∈ n.signals, IsName t.name
  targets : ∀ w ∈ n.assignments, IsName w.target
  instantiations : ∀ i ∈ n.instantiations, IsName i.name

/-- The design and what its architecture is made of have names. -/
structure Design.Named (d : Design) : Prop where
  name : IsName d.name
  netlist : ∀ n ∈ d.netlist, n.Named

variable {name : String} {d : Design} {n : Netlist}

/-! ### How a line starts -/

/-- What stands behind a name and a blank is the rest of the arrow. -/
def isArrow (rest : String) : Bool := "<= ".toList.isPrefixOf rest.toList

theorem isArrow_append_of_isName (hn : IsName name) (rest : String) (hrest : isArrow rest = false) :
    isArrow (name ++ rest) = false := by
  rw [isArrow, String.toList_append]
  cases hl : name.toList with
  | nil => exact hrest
  | cons c r =>
    have hc : isNameChar c := hn c (hl ▸ List.mem_cons_self)
    have hne : '<' ≠ c := by
      rintro rfl
      revert hc
      decide
    have harrow : "<= ".toList = ['<', '=', ' '] := rfl
    rw [harrow, List.cons_append, List.isPrefixOf_cons_cons, beq_false_of_ne hne, Bool.false_and]

theorem assigns_append_of_isName (hn : IsName name) (rest : String) :
    assigns (name ++ rest) = assigns rest := by
  rw [assigns, assigns, String.toList_append, List.dropWhile_append_of_pos hn]

theorem assigns_assignmentLine {w : Wire} (hw : IsName w.target) : assigns (assignmentLine w) := by
  rw [assignmentLine, String.append_assoc, String.append_assoc, assigns_append_of_isName hw, assigns,
    String.toList_append]
  rfl

theorem not_assigns_tab (rest : String) : assigns ("\t" ++ rest) = false := by
  rw [assigns, String.toList_append]
  rfl

/-- A word, a blank and a name: a line that starts like this assigns nothing. -/
theorem not_assigns_word {start rest : String} (hstart : start.toList.dropWhile isNameChar = [' '])
    (hn : IsName name) (hrest : isArrow rest = false) : assigns (start ++ name ++ rest) = false := by
  have hword : assigns (start ++ (name ++ rest)) = isArrow (name ++ rest) := by
    rw [assigns, String.toList_append, List.dropWhile_append, hstart]
    rfl
  rw [String.append_assoc, hword]
  exact isArrow_append_of_isName hn rest hrest

theorem not_assigns_subtypeLine (t : Typed) : assigns (subtypeLine t) = false := by
  have hstart : ∀ rest, assigns ("\tsubtype " ++ rest) = false := by
    intro rest
    rw [assigns, String.toList_append]
    rfl
  simp only [subtypeLine, String.append_assoc, hstart]

theorem not_assigns_inputLine (t : Typed) : assigns (inputLine t) = false := by
  simp only [inputLine, String.append_assoc, not_assigns_tab]

theorem not_assigns_outputLine (t : Typed) : assigns (outputLine t) = false := by
  simp only [outputLine, String.append_assoc, not_assigns_tab]

theorem not_assigns_bindingLine (w : Wire) : assigns (bindingLine w) = false := by
  simp only [bindingLine, String.append_assoc, not_assigns_tab]

theorem not_assigns_signalLine {t : Typed} (ht : IsName t.name) : assigns (signalLine t) = false := by
  rw [signalLine, String.append_assoc, String.append_assoc]
  exact not_assigns_word (by decide) ht (by rw [isArrow, String.toList_append]; rfl)

/-! ### Sections of a text -/

theorem not_assigns_packageLines (h : d.Named) : ∀ line ∈ d.packageLines, assigns line = false := by
  have hfront : ∀ line ∈ ["-- Package def --", "package " ++ d.name ++ "_types is"], assigns line = false :=
    List.forall_mem_cons.2 ⟨by decide, List.forall_mem_singleton.2
      (not_assigns_word (by decide) h.name rfl)⟩
  have hback : assigns ("end " ++ d.name ++ "_types;") = false :=
    not_assigns_word (by decide) h.name rfl
  simp only [Design.packageLines, List.forall_mem_append, List.forall_mem_map, List.forall_mem_singleton]
  exact ⟨⟨hfront, fun t _ => not_assigns_subtypeLine t⟩, hback⟩

theorem not_assigns_portLines (h : d.Named) : ∀ line ∈ d.portLines, assigns line = false := by
  have hfront : ∀ line ∈ ["entity " ++ d.name ++ " is", "port(", "", "\t-- Inputs --"],
      assigns line = false :=
    List.forall_mem_cons.2 ⟨not_assigns_word (by decide) h.name rfl, by decide⟩
  have hmiddle : ∀ line ∈ ["", "\t-- Outputs --"], assigns line = false := by decide
  have hback : ∀ line ∈ ["", "\t-- Standard Signals --", "\tclk : in std_logic;", "\trst : in std_logic",
      ");"] ++ ["end " ++ d.name ++ ";"], assigns line = false :=
    List.forall_mem_append.2 ⟨by decide, List.forall_mem_singleton.2
      (not_assigns_word (by decide) h.name rfl)⟩
  simp only [Design.portLines, List.forall_mem_append, List.forall_mem_map]
  exact ⟨⟨⟨⟨hfront, fun t _ => not_assigns_inputLine t⟩, hmiddle⟩,
    fun t _ => not_assigns_outputLine t⟩, hback⟩

/-- The line that opens an architecture. -/
theorem not_assigns_architecture (name : String) :
    assigns ("architecture " ++ architectureName ++ " of " ++ name ++ " is") = false := by
  rw [String.append_assoc, String.append_assoc]
  refine not_assigns_word (by decide) (by decide) ?_
  rw [isArrow, String.toList_append]
  rfl

theorem not_assigns_atomicLines (name : String) : ∀ line ∈ atomicLines name, assigns line = false := by
  unfold atomicLines
  refine List.forall_mem_cons.2 ⟨by decide, List.forall_mem_cons.2 ⟨by decide,
    List.forall_mem_cons.2 ⟨not_assigns_architecture name, by decide +kernel⟩⟩⟩

theorem not_assigns_instantiation {i : Instantiation} (hi : IsName i.name) :
    ∀ line ∈ i.lines, assigns line = false := by
  have hopen : assigns (i.name ++ ": entity work." ++ i.entity) = false := by
    rw [String.append_assoc, assigns_append_of_isName hi, assigns, String.toList_append]
    rfl
  have hfront : ∀ line ∈ [i.name ++ ": entity work." ++ i.entity, "port map (", "\t-- inputs --"],
      assigns line = false := List.forall_mem_cons.2 ⟨hopen, by decide⟩
  have hmiddle : ∀ line ∈ ["\t-- outputs --"], assigns line = false := by decide
  have hback : ∀ line ∈ ["\tclk => clk,", "\trst => rst", ");"], assigns line = false := by decide
  simp only [Instantiation.lines, List.forall_mem_append, List.forall_mem_map]
  exact ⟨⟨⟨⟨hfront, fun w _ => not_assigns_bindingLine w⟩, hmiddle⟩,
    fun w _ => not_assigns_bindingLine w⟩, hback⟩

/-- **The architecture of a composite** assigns something in the lines of its wires only. -/
theorem Netlist.Named.filter_assigns_lines (h : n.Named) :
    (n.lines name).filter assigns = n.assignments.map assignmentLine := by
  have hwires : ∀ ws : List Wire, (∀ w ∈ ws, IsName w.target) →
      (ws.map assignmentLine).filter assigns = ws.map assignmentLine := by
    intro ws hws
    refine List.filter_eq_self.2 fun line hline => ?_
    obtain ⟨w, hw, rfl⟩ := List.mem_map.1 hline
    exact assigns_assignmentLine (hws w hw)
  have hnone : ∀ lines : List String, (∀ line ∈ lines, assigns line = false) → lines.filter assigns = [] :=
    fun lines hlines => List.filter_eq_nil_iff.2 fun line hline => by simp [hlines line hline]
  have hopen : ∀ line ∈ ["", "-- Architecture def --", "architecture " ++ architectureName ++ " of " ++ name ++
      " is", "-- signals of parts --"], assigns line = false :=
    List.forall_mem_cons.2 ⟨by decide, List.forall_mem_cons.2 ⟨by decide,
      List.forall_mem_cons.2 ⟨not_assigns_architecture name, by decide⟩⟩⟩
  have hsignals : ∀ line ∈ n.signals.map signalLine, assigns line = false :=
    List.forall_mem_map.2 fun t ht => not_assigns_signalLine (h.signals t ht)
  have hparts : ∀ line ∈ n.instantiations.flatMap Instantiation.lines, assigns line = false := by
    intro line hline
    obtain ⟨i, hi, hline⟩ := List.mem_flatMap.1 hline
    exact not_assigns_instantiation (h.instantiations i hi) line hline
  have htargets := h.targets
  simp only [assignments, List.forall_mem_append] at htargets
  obtain ⟨⟨hinputs, houtputs⟩, hbetween⟩ := htargets
  have hbegin : ["", "begin", "-- assignment of toplvl inputs to internal inputs --"].filter assigns = [] := by
    decide +kernel
  have houtputsTitle : ["-- assignment of internal outputs to toplvl outputs --"].filter assigns = [] := by
    decide +kernel
  have hbetweenTitle : ["-- assignment of internal outputs to internal inputs --"].filter assigns = [] := by
    decide +kernel
  have hpartsTitle : ["-- part entity instantiation & wiring --"].filter assigns = [] := by decide +kernel
  have hend : ["-- processes here --", "end " ++ architectureName ++ ";"].filter assigns = [] := by
    decide +kernel
  simp only [Netlist.lines, List.filter_append, hnone _ hopen, hnone _ hsignals, hnone _ hparts,
    hwires _ hinputs, hwires _ houtputs, hwires _ hbetween, hbegin, houtputsTitle, hbetweenTitle, hpartsTitle,
    hend, assignments, List.map_append, List.append_nil, List.nil_append]

/-- **The lines that assign something** are those of the assignments. -/
theorem Design.filter_assigns_lines (h : d.Named) :
    d.lines.filter assigns = d.assignments.map assignmentLine := by
  have hfront : ∀ line ∈ [header] ++ libraryClause ++ [""] ++ d.packageLines ++ [""] ++ libraryClause ++
      ["", "use work." ++ d.name ++ "_types.all;", ""] ++ d.portLines, assigns line = false := by
    have huse : assigns ("use work." ++ d.name ++ "_types.all;") = false := by
      rw [String.append_assoc, assigns, String.toList_append]
      rfl
    simp only [List.forall_mem_append, List.forall_mem_cons]
    refine ⟨⟨⟨⟨⟨⟨⟨⟨by decide, by simp⟩, by decide⟩, ⟨by decide, by simp⟩⟩,
      not_assigns_packageLines h⟩, ⟨by decide, by simp⟩⟩, by decide⟩, ⟨by decide, huse,
      by decide, by simp⟩⟩, not_assigns_portLines h⟩
  have harchitecture : d.architectureLines.filter assigns = d.assignments.map assignmentLine := by
    unfold architectureLines assignments
    cases hd : d.netlist with
    | none => exact List.filter_eq_nil_iff.2 fun line hline => by simp [not_assigns_atomicLines d.name line hline]
    | some n => exact (h.netlist n hd).filter_assigns_lines
  have hnone := List.filter_eq_nil_iff.2 fun line hline => Bool.eq_false_iff.1 (hfront line hline)
  rw [lines, List.filter_append, hnone, harchitecture, List.nil_append]

end Entity

namespace Store

open Entity

variable {g : Store} {s : Settings} {relevant : UidSet} {c : Context} {n : Netlist}

theorem isName_inputPort (g : Store) (u : Uid) : IsName (g.inputPort u) := isName_ofInput _

theorem isName_outputPort (g : Store) (u : Uid) : IsName (g.outputPort u) := isName_ofOutput _

theorem isName_signals : ∀ t ∈ (g.netlist s c).signals, IsName t.name := by
  intro t ht
  simp only [netlist, partSignals, declarations, List.mem_flatMap, List.mem_append, List.mem_map] at ht
  rcases ht with ⟨p, -, ⟨u, -, c, -, rfl⟩ | ⟨u, -, c, -, rfl⟩⟩
  · exact isName_ofSignal p (g.isName_inputPort u)
  · exact isName_ofSignal p (g.isName_outputPort u)

/-- What is assigned is named as well. -/
theorem isName_assignments : ∀ w ∈ (g.netlist s c).assignments, IsName w.target ∧ IsName w.source := by
  intro w hw
  simp only [Netlist.assignments, netlist, inputWires, outputWires, innerWires, List.mem_flatMap,
    List.mem_append, List.mem_map] at hw
  rcases hw with (⟨u, -, p, -, rfl⟩ | ⟨u, -, p, -, rfl⟩) | ⟨p, -, u, -, o, -, q, -, rfl⟩
  · exact ⟨isName_ofSignal p (g.isName_inputPort u), g.isName_inputPort u⟩
  · exact ⟨g.isName_outputPort u, isName_ofSignal p (g.isName_outputPort u)⟩
  · exact ⟨isName_ofSignal p (g.isName_inputPort u), isName_ofSignal q (g.isName_outputPort o)⟩

/-- A design that has a netlist has that of the algorithm. -/
theorem eq_netlist_of_mem (hn : n ∈ (g.design s relevant c).netlist) : n = g.netlist s c := by
  simp only [design] at hn
  split at hn
  · cases hn
  · exact (Option.some.inj hn).symm

theorem isName_assignments_design {w : Wire} (hw : w ∈ (g.design s relevant c).assignments) :
    IsName w.target ∧ IsName w.source := by
  unfold Design.assignments at hw
  cases hn : (g.design s relevant c).netlist with
  | none =>
    rw [hn] at hw
    cases hw
  | some n =>
    rw [hn] at hw
    obtain rfl := eq_netlist_of_mem hn
    exact isName_assignments w hw

/-- Whatever the labels and uids of a model are, its designs are put together from names. -/
theorem named_design (g : Store) (s : Settings) (relevant : UidSet) (a : Uid) :
    (g.design s relevant (g.context a)).Named := by
  refine ⟨isName_ofText _, fun n hn => ?_⟩
  obtain rfl := eq_netlist_of_mem hn
  refine ⟨isName_signals, fun w hw => (isName_assignments w hw).1, fun i hi => ?_⟩
  simp only [netlist, List.mem_flatMap, List.mem_map] at hi
  obtain ⟨p, -, c, -, rfl⟩ := hi
  exact isName_ofPart p

end Store

end DesignGraph
