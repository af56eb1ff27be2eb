import DesignGraph.ClassRoot
import DesignGraph.Rejection
import DesignGraph.Relation.Assertion

/-! # Typed assertions

Each assertion of the component and the algorithm vocabulary admits endpoints of certain classes only
(`Side`). `assertBetween` drops the others, rejects them, and asserts one fact between what is left; if a
side is left empty nothing is asserted. Endpoints come as lists, and every occurrence of an endpoint that
is not admitted is rejected. An algorithm that needs or provides an interface first has it as an interface
like any component. -/

namespace DesignGraph

/-- What is admitted at one end of an assertion, and what that is called. -/
structure Side where
  valid : UidSet
  expected : String

namespace Side

/-- Component classes and component instances. -/
def component (g : Store) : Side :=
  ⟨g.allClasses .component ∪ g.allMembers .component, "component"⟩

/-- Component instances. -/
def componentInstance (g : Store) : Side := ⟨g.allMembers .component, "component instance"⟩

/-- Network classes and network instances. -/
def network (g : Store) : Side := ⟨g.allMembers .network ∪ g.allClasses .network, "network"⟩

/-- Interface instances. -/
def interfaceInstance (g : Store) : Side := ⟨g.allMembers .interface, "interface instance"⟩

/-- Algorithm classes and algorithm instances. -/
def algorithm (g : Store) : Side :=
  ⟨g.allClasses .algorithm ∪ g.allMembers .algorithm, "algorithm"⟩

/-- Algorithm classes. -/
def algorithmClass (g : Store) : Side := ⟨g.allClasses .algorithm, "algorithm class"⟩

/-- Input instances. -/
def inputInstance (g : Store) : Side := ⟨g.allMembers .input, "input instance"⟩

/-- Output instances. -/
def outputInstance (g : Store) : Side := ⟨g.allMembers .output, "output instance"⟩

/-- Implementation classes. -/
def implementationClass (g : Store) : Side :=
  ⟨g.allClasses .implementation, "implementation class"⟩

end Side

namespace Store

/-- Asserts a fact between the admitted ones among the endpoints. -/
def assertBetween (g : Store) (relation : Uid) (source target : Side) (sources targets : List Uid) :
    Outcome :=
  let (kept, rejected) := g.sift relation .source source.valid source.expected sources
  let (kept', rejected') := g.sift relation .target target.valid target.expected targets
  let (fact, g) := g.relateFrom relation kept kept'
  ⟨fact, g, rejected ++ rejected'⟩

/-! ### Components and networks -/

/-- Components own interface instances. -/
def hasInterface (g : Store) (components interfaces : List Uid) : Outcome :=
  g.assertBetween Vocabulary.hasAInterface (.component g) (.interfaceInstance g) components interfaces

/-- Interface instances are connected. -/
def connectInterface (g : Store) (sources targets : List Uid) : Outcome :=
  g.assertBetween Vocabulary.connectedTo (.interfaceInstance g) (.interfaceInstance g) sources targets

/-- Component instances are parts of networks. -/
def partOfNetwork (g : Store) (components networks : List Uid) : Outcome :=
  g.assertBetween Vocabulary.partOfNetwork (.componentInstance g) (.network g) components networks

/-- Networks own interfaces of their parts. Only interfaces of a part of one of the networks are
admitted. -/
def exportInterfaces (g : Store) (networks : UidSet) (interfaces : List Uid) : Outcome :=
  let valid := g.interfacesOf (g.componentsOf networks "" .forward) "" .forward
  let (exported, rejected) :=
    g.sift Vocabulary.hasAInterface .target valid "interface of a part" interfaces
  let side := Side.network g
  let (networks, rejected') :=
    g.sift Vocabulary.hasAInterface .source side.valid side.expected networks.toList
  if exported.isEmpty || networks.isEmpty then ⟨none, g, rejected ++ rejected'⟩
  else (g.hasInterface networks.toList exported.toList).after (rejected ++ rejected')

/-! ### Algorithms -/

/-- Algorithms own interfaces, and stand in a more special relation to them. -/
def hasInterfaceAs (g : Store) (relation : Uid) (target : Side) (algorithms interfaces : UidSet) :
    Outcome :=
  (g.hasInterface algorithms.toList interfaces.toList).andThen fun g =>
    g.assertBetween relation (.algorithm g) target algorithms.toList interfaces.toList

/-- Algorithms need inputs. -/
def needsInterface (g : Store) (algorithms inputs : UidSet) : Outcome :=
  g.hasInterfaceAs Vocabulary.needs (.inputInstance g) algorithms inputs

/-- Algorithms provide outputs. -/
def providesInterface (g : Store) (algorithms outputs : UidSet) : Outcome :=
  g.hasInterfaceAs Vocabulary.provides (.outputInstance g) algorithms outputs

/-- Inputs depend on outputs. -/
def dependsOn (g : Store) (inputs outputs : List Uid) : Outcome :=
  g.assertBetween Vocabulary.dependsOn (.inputInstance g) (.outputInstance g) inputs outputs

/-- Implementation classes realize algorithm classes. -/
def realizes (g : Store) (implementations algorithms : List Uid) : Outcome :=
  g.assertBetween Vocabulary.isA (.implementationClass g) (.algorithmClass g) implementations algorithms

end Store

end DesignGraph
