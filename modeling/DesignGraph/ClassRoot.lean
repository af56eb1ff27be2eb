import DesignGraph.Relation.Query

/-! # Root classes

Every built-in root class spans a class lattice: `classes` gives the classes below a root, `members` their
instances. The root of the interfaces of algorithms lies in the lattice of all interfaces. The structural
queries give the members of such a lattice that stand in a structural relation to given uids. -/

namespace DesignGraph

/-- A built-in root class. -/
inductive ClassRoot where
  | component
  | interface
  | network
  | algorithm
  | softwareInterface
  | input
  | output
  | implementation
  | datatype
  deriving DecidableEq, Repr

namespace ClassRoot

/-- The uid that the root is stored under. -/
def uid : ClassRoot → Uid
  | component => Vocabulary.component
  | interface => Vocabulary.interface
  | network => Vocabulary.network
  | algorithm => Vocabulary.algorithm
  | softwareInterface => Vocabulary.softwareInterface
  | input => Vocabulary.input
  | output => Vocabulary.output
  | implementation => Vocabulary.implementation
  | datatype => Vocabulary.datatype

end ClassRoot

namespace Store

/-! ### Classes and members of a lattice -/

/-- The root and the classes below it that have this label; if `below` has members, only those that are
also below one of these. -/
def classes (g : Store) (root : ClassRoot) (label : String) (below : UidSet) : UidSet :=
  let all := g.subclasses (.single root.uid) label .inverse
  if below.isEmpty then all else all ∩ g.subclasses below label .inverse

/-- The root and all classes below it. -/
def allClasses (g : Store) (root : ClassRoot) : UidSet := g.classes root "" ∅

/-- The instances with this label of classes in the lattice with this class label. -/
def members (g : Store) (root : ClassRoot) (label classLabel : String) : UidSet :=
  g.instances (g.classes root classLabel ∅) label .inverse

/-- All instances of classes in the lattice. -/
def allMembers (g : Store) (root : ClassRoot) : UidSet := g.members root "" ""

/-! ### Structural queries -/

/-- The interface instances that `s` owns; inversely, what owns the interface instances in `s`. -/
def interfacesOf (g : Store) (s : UidSet) (label : String) : Direction → UidSet
  | .inverse => g.children (s ∩ g.allMembers .interface) label .inverse
  | _ => g.children s label .forward ∩ g.members .interface label ""

/-- The component instances that are parts of `s`; inversely, the components that enclose `s`. -/
def componentsOf (g : Store) (s : UidSet) (label : String) : Direction → UidSet
  | .inverse =>
    g.children s label .inverse ∩ (g.allClasses .component ∪ g.allMembers .component)
  | _ => g.children s label .forward ∩ g.members .component label ""

/-- The input instances that `s` owns. -/
def inputsOf (g : Store) (s : UidSet) (label : String) : UidSet :=
  g.interfacesOf s label .forward ∩ g.members .input label ""

/-- The output instances that `s` owns. -/
def outputsOf (g : Store) (s : UidSet) (label : String) : UidSet :=
  g.interfacesOf s label .forward ∩ g.members .output label ""

/-- The output instances that the inputs in `s` depend on. -/
def dependenciesOf (g : Store) (s : UidSet) (label : String) : UidSet :=
  g.related Vocabulary.dependsOn s label .forward ∩ g.members .output label ""

/-- The implementation classes directly below the algorithms in `s`. -/
def implementationsOf (g : Store) (s : UidSet) (label : String) : UidSet :=
  g.directSubclasses s label .inverse ∩ g.classes .implementation label ∅

end Store

end DesignGraph
