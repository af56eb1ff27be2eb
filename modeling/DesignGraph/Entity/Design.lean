/-! # Designs and their text

A `Design` is the hardware description of one algorithm as a value: the types its interfaces need, its
ports, and for a composite the `Netlist` that joins its parts. `Design.lines` writes it: the package of
types first, then the entity with its ports, then the architecture. A port section ends with the two
standard signals, and the architecture of an algorithm without parts is an empty clocked process. -/

namespace DesignGraph.Entity

/-- A name with its type: a port, a signal or a declared type with the type it stands for. -/
structure Typed where
  name : String
  type : String
  deriving DecidableEq, Repr

/-- A connection: what is driven, and what drives it. -/
structure Wire where
  target : String
  source : String
  deriving DecidableEq, Repr

/-- A part in a composite: one instance of an entity, with the signal for each of its ports. -/
structure Instantiation where
  name : String
  entity : String
  inputs : List Wire
  outputs : List Wire
  deriving DecidableEq, Repr

/-- How the parts of a composite are joined. -/
structure Netlist where
  signals : List Typed
  /-- From the inputs of the composite to those of its parts. -/
  fromInputs : List Wire
  /-- From the outputs of the parts to those of the composite. -/
  toOutputs : List Wire
  /-- From the outputs of parts to inputs of parts. -/
  between : List Wire
  instantiations : List Instantiation
  deriving DecidableEq, Repr

/-- The hardware description of one algorithm. -/
structure Design where
  name : String
  subtypes : List Typed
  inputs : List Typed
  outputs : List Typed
  /-- The parts of a composite. -/
  netlist : Option Netlist
  deriving DecidableEq, Repr

/-! ### Lines -/

/-- The first line of every text. -/
def header : String := "-- Algorithm to VHDL entity generator --"

/-- What both the package and the entity use. -/
def libraryClause : List String := ["library IEEE;", "use IEEE.STD_LOGIC_1164.ALL;"]

/-- The name of every architecture. -/
def architectureName : String := "BEHAVIOURAL"

/-- The declaration of a subtype. -/
def subtypeLine (t : Typed) : String := "\tsubtype " ++ t.name ++ " is " ++ t.type ++ ";"

/-- The declaration of an input. -/
def inputLine (t : Typed) : String := "\t" ++ t.name ++ " : in " ++ t.type ++ ";"

/-- The declaration of an output. -/
def outputLine (t : Typed) : String := "\t" ++ t.name ++ " : out " ++ t.type ++ ";"

/-- The declaration of a signal. -/
def signalLine (t : Typed) : String := "signal " ++ t.name ++ " : " ++ t.type ++ ";"

/-- An assignment. -/
def assignmentLine (w : Wire) : String := w.target ++ " <= " ++ w.source ++ ";"

/-- The binding of a port of a part. -/
def bindingLine (w : Wire) : String := "\t" ++ w.target ++ " => " ++ w.source ++ ","

/-- The instantiation of a part. -/
def Instantiation.lines (i : Instantiation) : List String :=
  [i.name ++ ": entity work." ++ i.entity, "port map (", "\t-- inputs --"] ++
    i.inputs.map bindingLine ++ ["\t-- outputs --"] ++ i.outputs.map bindingLine ++
    ["\tclk => clk,", "\trst => rst", ");"]

/-- The architecture of an algorithm without parts. -/
def atomicLines (name : String) : List String := [
  "",
  "-- Architecture def --",
  "architecture " ++ architectureName ++ " of " ++ name ++ " is",
  "-- signals here --",
  "",
  "begin",
  "-- processes here --",
  "compute : process(clk)",
  "\t-- variables here --",
  "\tbegin",
  "\t\tif rising_edge(clk) then",
  "\t\t\tif (rst='1') then",
  "\t\t\t\t-- init here --",
  "\t\t\telse",
  "\t\t\t\t-- computation here --",
  "\t\t\tend if;",
  "\t\tend if;",
  "end process compute;",
  "end " ++ architectureName ++ ";"]

/-- The architecture of a composite. -/
def Netlist.lines (name : String) (n : Netlist) : List String :=
  ["", "-- Architecture def --", "architecture " ++ architectureName ++ " of " ++ name ++ " is",
    "-- signals of parts --"] ++ n.signals.map signalLine ++
    ["", "begin", "-- assignment of toplvl inputs to internal inputs --"] ++
    n.fromInputs.map assignmentLine ++
    ["-- assignment of internal outputs to toplvl outputs --"] ++ n.toOutputs.map assignmentLine ++
    ["-- assignment of internal outputs to internal inputs --"] ++ n.between.map assignmentLine ++
    ["-- part entity instantiation & wiring --"] ++ n.instantiations.flatMap Instantiation.lines ++
    ["-- processes here --", "end " ++ architectureName ++ ";"]

namespace Design

/-- The package of types. -/
def packageLines (d : Design) : List String :=
  ["-- Package def --", "package " ++ d.name ++ "_types is"] ++ d.subtypes.map subtypeLine ++
    ["end " ++ d.name ++ "_types;"]

/-- The entity with its ports. -/
def portLines (d : Design) : List String :=
  ["entity " ++ d.name ++ " is", "port(", "", "\t-- Inputs --"] ++ d.inputs.map inputLine ++
    ["", "\t-- Outputs --"] ++ d.outputs.map outputLine ++
    ["", "\t-- Standard Signals --", "\tclk : in std_logic;", "\trst : in std_logic", ");",
      "end " ++ d.name ++ ";"]

/-- The architecture. -/
def architectureLines (d : Design) : List String :=
  match d.netlist with
  | some n => n.lines d.name
  | none => atomicLines d.name

/-- The whole description. -/
def lines (d : Design) : List String :=
  [header] ++ libraryClause ++ [""] ++ d.packageLines ++ [""] ++ libraryClause ++
    ["", "use work." ++ d.name ++ "_types.all;", ""] ++ d.portLines ++ d.architectureLines

/-- The text of the description: every line ends with a line feed. -/
def text (d : Design) : String := "\n".intercalate d.lines ++ "\n"

end Design

end DesignGraph.Entity
