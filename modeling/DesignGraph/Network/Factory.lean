import DesignGraph.ClassRoot
import DesignGraph.Instance
import DesignGraph.Rejection

/-! # Making classes

`createClass` makes a class below a root: a concept that is a subclass of the root and of those among the
given superclasses that the root admits. It refuses an empty uid, the uid of something that is no concept,
and a class that would have no superclass but itself; then nothing is stored. -/

namespace DesignGraph

namespace ClassRoot

/-- The label of a class that is given none. -/
def defaultLabel : ClassRoot → String
  | component => "Component"
  | interface => "Interface"
  | network => "Network"
  | algorithm => "Algorithm"
  | softwareInterface => "Interface"
  | input => "Input"
  | output => "Output"
  | implementation => "Implementation"
  | datatype => "Datatype"

/-- The superclasses that a class below the root may have. -/
def admitted (g : Store) : ClassRoot → UidSet
  | component => g.allClasses .component
  | interface => g.allClasses .interface
  | network => g.allClasses .network
  | algorithm => g.allClasses .algorithm
  | softwareInterface => g.allClasses .interface
  | input => g.allClasses .interface
  | output => g.allClasses .interface
  | implementation => g.allClasses .implementation
  | datatype => g.allClasses .datatype ∪ g.allClasses .interface

/-- What these superclasses are called. -/
def expected : ClassRoot → String
  | component => "component class"
  | interface => "interface class"
  | network => "network class"
  | algorithm => "algorithm class"
  | softwareInterface => "interface class"
  | input => "interface class"
  | output => "interface class"
  | implementation => "implementation class"
  | datatype => "datatype or interface class"

/-- The roots that a class lattice is counted for, with their names in statistics. -/
def counted : ClassRoot → Option String
  | component => some "COMPONENT"
  | interface => some "INTERFACE"
  | network => some "NETWORK"
  | algorithm => some "ALGORITHM"
  | softwareInterface => none
  | input => some "INPUT"
  | output => some "OUTPUT"
  | implementation => some "IMPLEMENTATION"
  | datatype => some "DATATYPE"

end ClassRoot

namespace Store

/-- Whether a uid can name a class: it is not empty and not taken by something that is no concept. -/
def canNameClass (g : Store) (u : Uid) : Bool :=
  u != "" && (g.get? u).all fun e => e.kind == .concept

/-- Makes a class below a root. -/
def createClass (g : Store) (root : ClassRoot) (u : Uid) (label : String) (superclasses : UidSet) :
    Outcome :=
  if g.canNameClass u then
    let (kept, rejected) := g.sift Vocabulary.isA .superclass (root.admitted g) root.expected
      (superclasses.insert root.uid).toList
    let kept := kept.erase u
    if kept.isEmpty then ⟨none, g, rejected⟩
    else
      let (_, g) := g.create u label
      let (fact, g) := g.isA (.single u) kept
      ⟨fact.map fun _ => u, g, rejected⟩
  else .nothing g

/-- Copies component classes with their structure. -/
def instantiateComponents (g : Store) (classes : UidSet) : Except Copying.Failure UidSet × Store :=
  g.instantiateDeep (classes ∩ g.allClasses .component)

end Store

end DesignGraph
