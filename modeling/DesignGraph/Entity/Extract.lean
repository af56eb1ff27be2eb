import DesignGraph.Composition.Parts
import DesignGraph.Entity.Design
import DesignGraph.Entity.Notice
import DesignGraph.Identifier
import DesignGraph.Settings

/-! # From the graph to a design

`Store.context` gathers what a description of an algorithm needs: its inputs, its outputs, the classes of
both, and its parts. `Store.design` builds the design from it. An interface instance with several classes
has one port and one signal for each class. A part that owns an interface of the composite is joined to
the port of the composite, and an input of a part that depends on an output of a part is joined to it,
once for every such pair: an output that feeds several inputs is assigned several times. -/

namespace DesignGraph

namespace Entity

/-- What the description of an algorithm is built from. -/
structure Context where
  algorithm : Uid
  name : String
  inputs : UidSet
  outputs : UidSet
  /-- The classes of all inputs and outputs. -/
  interfaceClasses : UidSet
  parts : UidSet

/-- The datatypes that realize one interface class. -/
structure Resolution where
  interfaceClass : Uid
  datatypes : UidSet

namespace Resolution

/-- What is to be said about an interface class without a unique datatype. -/
def notices (name : String) (r : Resolution) : List Notice :=
  match r.datatypes.size with
  | 0 => [.noDatatype r.interfaceClass name]
  | 1 => []
  | n => [.manyDatatypes n r.interfaceClass name]

end Resolution

end Entity

open Entity

namespace Store

/-- The classes of an interface instance, in order. -/
def interfaceClassesOf (g : Store) (u : Uid) : List Uid := (g.classesOf u).toList

/-- What the description of an algorithm is built from. -/
def context (g : Store) (algorithm : Uid) : Context :=
  let owned := g.interfacesOf (.single algorithm) "" .forward
  let inputs := g.allMembers .input ∩ owned
  let outputs := g.allMembers .output ∩ owned
  { algorithm
    name := g.labelOf algorithm
    inputs
    outputs
    interfaceClasses := inputs.flatMap g.classesOf ∪ outputs.flatMap g.classesOf
    parts := g.partsOf algorithm }

/-- The datatypes that the settings let count. -/
def relevantDatatypes (g : Store) (s : Settings) : UidSet :=
  match s.datatypeUid with
  | none => g.allClasses .datatype
  | some uid => if uid = "" then g.allClasses .datatype else g.classes .datatype "" (.single uid)

/-! ### Names -/

/-- The type that belongs to an interface class. -/
def typeName (g : Store) (s : Settings) (interfaceClass : Uid) : String :=
  Identifier.ofType (g.labelOf interfaceClass) s.typeSuffix

/-- The port of an input instance. -/
def inputPort (g : Store) (u : Uid) : String := Identifier.ofInput (g.labelOf u)

/-- The port of an output instance. -/
def outputPort (g : Store) (u : Uid) : String := Identifier.ofOutput (g.labelOf u)

/-- A name declared once for each class of an interface instance, with the type of that class. -/
def declarations (g : Store) (s : Settings) (name : String) (u : Uid) : List Typed :=
  (g.interfaceClassesOf u).map fun c => ⟨name, g.typeName s c⟩

/-! ### Types -/

/-- The datatypes that count for each interface class of an algorithm. -/
def resolutions (g : Store) (relevant : UidSet) (c : Context) : List Resolution :=
  c.interfaceClasses.toList.map fun i =>
    ⟨i, relevant ∩ g.directSubclasses (.single i) "" .inverse⟩

/-- The subtypes that a resolution declares. -/
def subtypes (g : Store) (s : Settings) (r : Resolution) : List Typed :=
  r.datatypes.toList.map fun d => ⟨g.typeName s r.interfaceClass, g.labelOf d⟩

/-! ### Parts -/

/-- The inputs of a part. -/
def partInputs (g : Store) (part : Uid) : List Uid :=
  (g.allMembers .input ∩ g.interfacesOf (.single part) "" .forward).toList

/-- The outputs of a part. -/
def partOutputs (g : Store) (part : Uid) : List Uid :=
  (g.allMembers .output ∩ g.interfacesOf (.single part) "" .forward).toList

/-- The parts that own an interface instance. -/
def owners (g : Store) (parts : UidSet) (u : Uid) : List Uid :=
  (parts ∩ g.interfacesOf (.single u) "" .inverse).toList

/-- The signals of a part. -/
def partSignals (g : Store) (s : Settings) (part : Uid) : List Typed :=
  (g.partInputs part).flatMap (fun i =>
      g.declarations s (Identifier.ofSignal part (g.inputPort i)) i) ++
    (g.partOutputs part).flatMap (fun o =>
      g.declarations s (Identifier.ofSignal part (g.outputPort o)) o)

/-- From an input of the composite to the parts that own it. -/
def inputWires (g : Store) (parts : UidSet) (i : Uid) : List Wire :=
  (g.owners parts i).map fun p => ⟨Identifier.ofSignal p (g.inputPort i), g.inputPort i⟩

/-- From the parts that own an output of the composite to it. -/
def outputWires (g : Store) (parts : UidSet) (o : Uid) : List Wire :=
  (g.owners parts o).map fun p => ⟨g.outputPort o, Identifier.ofSignal p (g.outputPort o)⟩

/-- To the inputs of a part from the outputs of parts that they depend on. -/
def innerWires (g : Store) (parts : UidSet) (part : Uid) : List Wire :=
  (g.partInputs part).flatMap fun i =>
    (g.dependenciesOf (.single i) "").toList.flatMap fun o =>
      (g.owners parts o).map fun p =>
        ⟨Identifier.ofSignal part (g.inputPort i), Identifier.ofSignal p (g.outputPort o)⟩

/-- A port of a part with its signal. -/
def binding (part : Uid) (port : String) : Wire := ⟨port, Identifier.ofSignal part port⟩

/-- A part as an instance of one of the algorithm classes that it realizes. -/
def instantiation (g : Store) (part algorithm : Uid) : Instantiation where
  name := Identifier.ofPart part
  entity := Identifier.ofText (g.labelOf algorithm)
  inputs := (g.partInputs part).map fun i => binding part (g.inputPort i)
  outputs := (g.partOutputs part).map fun o => binding part (g.outputPort o)

/-- How the parts of a composite are joined. -/
def netlist (g : Store) (s : Settings) (c : Context) : Netlist where
  signals := c.parts.toList.flatMap (g.partSignals s)
  fromInputs := c.inputs.toList.flatMap (g.inputWires c.parts)
  toOutputs := c.outputs.toList.flatMap (g.outputWires c.parts)
  between := c.parts.toList.flatMap (g.innerWires c.parts)
  instantiations := c.parts.toList.flatMap fun p =>
    (g.partClasses p).toList.map (g.instantiation p)

/-! ### The design -/

/-- The design of an algorithm. -/
def design (g : Store) (s : Settings) (relevant : UidSet) (c : Context) : Design where
  name := Identifier.ofText c.name
  subtypes := (g.resolutions relevant c).flatMap (g.subtypes s)
  inputs := c.inputs.toList.flatMap fun i => g.declarations s (g.inputPort i) i
  outputs := c.outputs.toList.flatMap fun o => g.declarations s (g.outputPort o) o
  netlist := if c.parts.isEmpty then none else some (g.netlist s c)

/-- What is to be said about the types of an algorithm. -/
def typeNotices (g : Store) (relevant : UidSet) (c : Context) : List Notice :=
  (g.resolutions relevant c).flatMap (Resolution.notices c.name)

/-- The description of an algorithm, without storing it. -/
def render (g : Store) (s : Settings) (relevant : UidSet) (algorithm : Uid) : String :=
  (g.design s relevant (g.context algorithm)).text

end Store

end DesignGraph
