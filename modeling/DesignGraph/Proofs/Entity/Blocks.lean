import DesignGraph.Proofs.Entity.Lines

/-! # The entity and the architecture in a text

A text is read line by line: a line opens a block by its first word, and what stands between this line and the
next one that closes the block are the lines of the block. The entity and the architecture of a design are
found like this among all its lines (`Design.entityBlock_lines`, `Design.architectureBlock_lines`), whatever
the types in it are. In the architecture of a composite nothing has to be looked at but the lines of signals
and those that start an instantiation, if all other lines are of no interest (`Netlist.countP_body`). -/

namespace DesignGraph

open Identifier

namespace Entity

variable {name : String} {d : Design} {n : Netlist}

/-! ### How a line starts -/

/-- The first word of a line, which is empty if the line starts otherwise. -/
def firstWord (line : String) : String := String.ofList (line.toList.takeWhile isNameChar)

/-- A name stands first, and then the mark. -/
def startsWithName (mark : String) (l : List Char) : Bool := mark.toList.isPrefixOf (l.dropWhile isNameChar)

/-- A word ends with the first character that may not stand in a name. -/
theorem firstWord_append {start : String} (h : start.toList.all isNameChar = false) (rest : String) :
    firstWord (start ++ rest) = firstWord start := by
  rw [firstWord, firstWord, String.toList_append, List.takeWhile_append, if_neg]
  intro hlength
  rw [← (List.takeWhile_sublist _).eq_of_length hlength, List.all_takeWhile] at h
  cases h

theorem not_firstWord_of_mem {line word : String} {words : List String} (h : firstWord line ∈ words)
    (hword : word ∉ words) : (firstWord line == word) = false :=
  beq_false_of_ne fun he => hword (he ▸ h)

theorem startsWithName_append {mark : String} (hn : IsName name) (l : List Char) :
    startsWithName mark (name.toList ++ l) = startsWithName mark l := by
  rw [startsWithName, startsWithName, List.dropWhile_append_of_pos hn]

/-! ### Blocks of a text -/

/-- What stands between the first line that opens a block and the next one that closes it. -/
def block (opens closes : String → Bool) (ls : List String) : List String :=
  ((ls.dropWhile fun line => !opens line).drop 1).takeWhile fun line => !closes line

/-- The line ends an architecture. -/
def closesArchitecture (line : String) : Bool :=
  firstWord line == "end" && startsWithName (" " ++ architectureName ++ ";") line.toList

/-- The lines of the entity. -/
def entityBlock (ls : List String) : List String :=
  block (firstWord · == "entity") (firstWord · == "end") ls

/-- The lines of the architecture. -/
def architectureBlock (ls : List String) : List String :=
  block (firstWord · == "architecture") closesArchitecture ls

theorem block_append {opens closes : String → Bool} {before inside after : List String} {first last : String}
    (hbefore : ∀ line ∈ before, opens line = false) (hfirst : opens first)
    (hinside : ∀ line ∈ inside, closes line = false) (hlast : closes last) :
    block opens closes (before ++ first :: (inside ++ last :: after)) = inside := by
  rw [block, List.dropWhile_append_of_pos (by simpa using hbefore),
    List.dropWhile_cons_of_neg (by simp [hfirst]), List.drop_one, List.tail_cons,
    List.takeWhile_append_of_pos (by simpa using hinside),
    List.takeWhile_cons_of_neg (by simp [hlast]), List.append_nil]

theorem mem_of_mem_block {opens closes : String → Bool} {line : String} {ls : List String}
    (h : line ∈ block opens closes ls) : line ∈ ls :=
  (List.dropWhile_sublist _).subset ((List.drop_sublist 1 _).subset ((List.takeWhile_sublist _).subset h))

/-! ### The lines in front of the entity -/

theorem firstWord_entity (name : String) : firstWord ("entity " ++ name ++ " is") = "entity" := by
  rw [String.append_assoc, firstWord_append rfl]
  rfl

theorem firstWord_end (name rest : String) : firstWord ("end " ++ name ++ rest) = "end" := by
  rw [String.append_assoc, firstWord_append rfl]
  rfl

/-- The package of types and what the entity uses. -/
def Design.front (d : Design) : List String :=
  [header] ++ libraryClause ++ [""] ++ d.packageLines ++ [""] ++ libraryClause ++
    ["", "use work." ++ d.name ++ "_types.all;", ""]

theorem Design.lines_eq : d.lines = d.front ++ d.portLines ++ d.architectureLines := rfl

theorem Design.firstWord_front :
    ∀ line ∈ d.front, firstWord line ∈ ["", "library", "use", "package", "end"] := by
  have hpackage : firstWord ("package " ++ d.name ++ "_types is") = "package" := by
    rw [String.append_assoc, firstWord_append rfl]
    rfl
  have hsubtype : ∀ t, firstWord (subtypeLine t) = "" := by
    intro t
    simp only [subtypeLine, String.append_assoc]
    rw [firstWord_append rfl]
    rfl
  have huse : firstWord ("use work." ++ d.name ++ "_types.all;") = "use" := by
    rw [String.append_assoc, firstWord_append rfl]
    rfl
  have hnone : "" ∈ ["", "library", "use", "package", "end"] := by decide
  simp only [front, packageLines, List.forall_mem_append, List.forall_mem_map, List.forall_mem_cons, hpackage,
    hsubtype, firstWord_end, huse, hnone, implies_true]
  decide +kernel

/-! ### The entity -/

/-- The lines between those that open and close the entity. -/
def Design.portBody (d : Design) : List String :=
  ["port(", "", "\t-- Inputs --"] ++ d.inputs.map inputLine ++ ["", "\t-- Outputs --"] ++
    d.outputs.map outputLine ++
    ["", "\t-- Standard Signals --", "\tclk : in std_logic;", "\trst : in std_logic", ");"]

theorem Design.portLines_eq : d.portLines =
    ("entity " ++ d.name ++ " is") :: (d.portBody ++ ["end " ++ d.name ++ ";"]) := by
  simp [portLines, portBody]

theorem Design.firstWord_portBody : ∀ line ∈ d.portBody, firstWord line ∈ ["", "port"] := by
  have hinput : ∀ t, firstWord (inputLine t) = "" := by
    intro t
    simp only [inputLine, String.append_assoc]
    rw [firstWord_append rfl]
    rfl
  have houtput : ∀ t, firstWord (outputLine t) = "" := by
    intro t
    simp only [outputLine, String.append_assoc]
    rw [firstWord_append rfl]
    rfl
  have hnone : "" ∈ ["", "port"] := by decide
  simp only [portBody, List.forall_mem_append, List.forall_mem_map, List.forall_mem_cons, hinput, houtput,
    hnone, implies_true]
  decide +kernel

/-- **The entity block** is what stands between the lines that open and close the entity. -/
theorem Design.entityBlock_lines (rest : List String) : entityBlock (d.lines ++ rest) = d.portBody := by
  have hfront : ∀ line ∈ d.front, (firstWord line == "entity") = false :=
    fun line hline => not_firstWord_of_mem (firstWord_front line hline) (by decide)
  have hbody : ∀ line ∈ d.portBody, (firstWord line == "end") = false :=
    fun line hline => not_firstWord_of_mem (firstWord_portBody line hline) (by decide)
  have hsplit : d.lines ++ rest = d.front ++ ("entity " ++ d.name ++ " is") ::
      (d.portBody ++ ("end " ++ d.name ++ ";") :: (d.architectureLines ++ rest)) := by
    simp [lines_eq, portLines_eq]
  rw [hsplit]
  exact block_append hfront (beq_iff_eq.2 (firstWord_entity _)) hbody (beq_iff_eq.2 (firstWord_end _ _))

/-! ### The architecture -/

/-- The lines between those that open and close the architecture of an algorithm without parts. -/
def atomicBody : List String := [
  "-- signals here --",
  "",
  "begin",
  "-- processes here --",
  "compute : process(clk)",
  "\t-- variables here --",
  "\tbegin",
  "\t\tif rising_edge(clk) then",
  "\t\t\tif (rst='1') then",
  "\t\t\t\t-- init here --",
  "\t\t\telse",
  "\t\t\t\t-- computation here --",
  "\t\t\tend if;",
  "\t\tend if;",
  "end process compute;"]

/-- The lines between those that open and close the architecture of a composite. -/
def Netlist.body (n : Netlist) : List String :=
  ["-- signals of parts --"] ++ n.signals.map signalLine ++
    ["", "begin", "-- assignment of toplvl inputs to internal inputs --"] ++ n.fromInputs.map assignmentLine ++
    ["-- assignment of internal outputs to toplvl outputs --"] ++ n.toOutputs.map assignmentLine ++
    ["-- assignment of internal outputs to internal inputs --"] ++ n.between.map assignmentLine ++
    ["-- part entity instantiation & wiring --"] ++ n.instantiations.flatMap Instantiation.lines ++
    ["-- processes here --"]

/-- The lines between those that open and close the architecture. -/
def Design.architectureBody (d : Design) : List String := d.netlist.elim atomicBody Netlist.body

theorem Design.architectureLines_eq : d.architectureLines = ["", "-- Architecture def --"] ++
    ("architecture " ++ architectureName ++ " of " ++ d.name ++ " is") ::
      (d.architectureBody ++ ["end " ++ architectureName ++ ";"]) := by
  unfold architectureLines architectureBody
  cases d.netlist with
  | none => rfl
  | some n => simp [Netlist.lines, Netlist.body]

/-- The lines that the architecture of every composite has. -/
def captions : List String := [
  "-- signals of parts --",
  "",
  "begin",
  "-- assignment of toplvl inputs to internal inputs --",
  "-- assignment of internal outputs to toplvl outputs --",
  "-- assignment of internal outputs to internal inputs --",
  "-- part entity instantiation & wiring --",
  "-- processes here --",
  "port map (",
  "\t-- inputs --",
  "\t-- outputs --",
  "\tclk => clk,",
  "\trst => rst",
  ");"]

/-- The first line of an instantiation. -/
def Instantiation.opening (i : Instantiation) : String := i.name ++ ": entity work." ++ i.entity

/-- **The lines of a composite** are of five kinds. -/
theorem Netlist.mem_body {line : String} (h : line ∈ n.body) : line ∈ captions ∨
    (∃ t ∈ n.signals, line = signalLine t) ∨ (∃ w ∈ n.assignments, line = assignmentLine w) ∨
      (∃ i ∈ n.instantiations, line = i.opening) ∨
        ∃ i ∈ n.instantiations, ∃ w ∈ i.inputs ++ i.outputs, line = bindingLine w := by
  simp only [body, Instantiation.lines, List.mem_append, List.mem_cons, List.mem_map, List.mem_flatMap,
    List.not_mem_nil, or_false] at h
  simp only [captions, assignments, Instantiation.opening, List.mem_append, List.mem_cons, List.not_mem_nil,
    or_false]
  grind

theorem Instantiation.countP_lines (p : String → Bool) (i : Instantiation)
    (hcaptions : ∀ line ∈ captions, p line = false) (hbindings : ∀ w, p (bindingLine w) = false) :
    i.lines.countP p = if p i.opening then 1 else 0 := by
  have hzero : ∀ ws : List Wire, (ws.map bindingLine).countP p = 0 := by
    intro ws
    rw [List.countP_map]
    exact List.countP_eq_zero.2 fun w _ => by simp [hbindings]
  simp only [captions, List.forall_mem_cons] at hcaptions
  simp [lines, opening, List.countP_append, List.countP_cons, hzero, hcaptions]
  rfl

/-- **What is counted in the architecture of a composite**, if captions, bindings and assignments do not
count. -/
theorem Netlist.countP_body (p : String → Bool) (n : Netlist) (hcaptions : ∀ line ∈ captions, p line = false)
    (hbindings : ∀ w, p (bindingLine w) = false)
    (hassignments : ∀ w ∈ n.assignments, p (assignmentLine w) = false) :
    n.body.countP p =
      n.signals.countP (fun t => p (signalLine t)) + n.instantiations.countP fun i => p i.opening := by
  have hzero : ∀ ws : List Wire, (∀ w ∈ ws, w ∈ n.assignments) → (ws.map assignmentLine).countP p = 0 := by
    intro ws hws
    rw [List.countP_map]
    exact List.countP_eq_zero.2 fun w hw => by simp [hassignments w (hws w hw)]
  have hin := hzero n.fromInputs fun w hw => by simp [assignments, hw]
  have hout := hzero n.toOutputs fun w hw => by simp [assignments, hw]
  have hbetween := hzero n.between fun w hw => by simp [assignments, hw]
  have hsignals : (n.signals.map signalLine).countP p = n.signals.countP fun t => p (signalLine t) :=
    List.countP_map
  have hinstantiations : (n.instantiations.flatMap Instantiation.lines).countP p =
      n.instantiations.countP fun i => p i.opening := by
    induction n.instantiations with
    | nil => rfl
    | cons i is ih =>
      rw [List.flatMap_cons, List.countP_append, ih, i.countP_lines p hcaptions hbindings, List.countP_cons,
        Nat.add_comm]
  simp only [captions, List.forall_mem_cons] at hcaptions
  simp [body, List.countP_append, hin, hout, hbetween, hsignals, hinstantiations, hcaptions]

theorem not_closesArchitecture_of_isName {rest : String} (hn : IsName name)
    (hrest : startsWithName (" " ++ architectureName ++ ";") rest.toList = false) :
    closesArchitecture (name ++ rest) = false := by
  rw [closesArchitecture, String.toList_append, startsWithName_append hn, hrest, Bool.and_false]

theorem not_closesArchitecture_of_firstWord {start : String} (h : start.toList.all isNameChar = false)
    (hend : (firstWord start == "end") = false) (rest : String) :
    closesArchitecture (start ++ rest) = false := by
  rw [closesArchitecture, firstWord_append h, hend, Bool.false_and]

/-- No line of a composite closes its architecture early. -/
theorem Netlist.Named.not_closesArchitecture (h : n.Named) :
    ∀ line ∈ n.body, closesArchitecture line = false := by
  have hcaptions : ∀ line ∈ captions, closesArchitecture line = false := by decide +kernel
  intro line hline
  rcases n.mem_body hline with hcaption | ⟨t, -, rfl⟩ | ⟨w, hw, rfl⟩ | ⟨i, hi, rfl⟩ | ⟨i, -, w, -, rfl⟩
  · exact hcaptions line hcaption
  · simp only [signalLine, String.append_assoc]
    exact not_closesArchitecture_of_firstWord rfl rfl _
  · rw [assignmentLine, String.append_assoc, String.append_assoc]
    refine not_closesArchitecture_of_isName (h.targets w hw) ?_
    rw [String.toList_append]
    rfl
  · rw [Instantiation.opening, String.append_assoc]
    refine not_closesArchitecture_of_isName (h.instantiations i hi) ?_
    rw [String.toList_append]
    rfl
  · simp only [bindingLine, String.append_assoc]
    exact not_closesArchitecture_of_firstWord rfl rfl _

/-- **The architecture block** is what stands between the lines that open and close the architecture. -/
theorem Design.architectureBlock_lines (h : d.Named) (rest : List String) :
    architectureBlock (d.lines ++ rest) = d.architectureBody := by
  have hopen : firstWord ("architecture " ++ architectureName ++ " of " ++ d.name ++ " is") =
      "architecture" := by
    simp only [String.append_assoc]
    rw [firstWord_append rfl]
    rfl
  have hbefore : ∀ line ∈ d.front ++ d.portLines ++ ["", "-- Architecture def --"],
      (firstWord line == "architecture") = false := by
    intro line hline
    rw [portLines_eq] at hline
    simp only [List.mem_append, List.mem_cons, List.not_mem_nil, or_false] at hline
    rcases hline with (hline | rfl | hline | rfl) | rfl | rfl
    · exact not_firstWord_of_mem (firstWord_front line hline) (by decide)
    · rw [firstWord_entity]
      rfl
    · exact not_firstWord_of_mem (firstWord_portBody line hline) (by decide)
    · rw [firstWord_end]
      rfl
    · rfl
    · rfl
  have hbody : ∀ line ∈ d.architectureBody, closesArchitecture line = false := by
    unfold architectureBody
    cases hd : d.netlist with
    | none =>
      have hatomic : ∀ line ∈ atomicBody, closesArchitecture line = false := by decide +kernel
      exact hatomic
    | some n => exact (h.netlist n hd).not_closesArchitecture
  have hsplit : d.lines ++ rest = (d.front ++ d.portLines ++ ["", "-- Architecture def --"]) ++
      ("architecture " ++ architectureName ++ " of " ++ d.name ++ " is") ::
        (d.architectureBody ++ ("end " ++ architectureName ++ ";") :: rest) := by
    simp [lines_eq, architectureLines_eq]
  rw [hsplit]
  exact block_append hbefore (beq_iff_eq.2 hopen) hbody rfl

end Entity

end DesignGraph
