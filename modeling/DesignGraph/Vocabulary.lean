import DesignGraph.UidSet

/-! # The vocabulary

The uids under which the built-in relation kinds and root classes are stored. They come in three layers:
generic relations, components with their interfaces and networks, and algorithms with their inputs,
outputs, implementations and datatypes. -/

namespace DesignGraph.Vocabulary

/-! ### Generic relations -/

/-- Class to superclass. -/
def isA : Uid := "ConceptGraph::IsA"

/-- Instance to class. -/
def instanceOf : Uid := "ConceptGraph::InstanceOf"

/-- Owner to child. -/
def hasA : Uid := "ConceptGraph::HasA"

/-- Part to whole. -/
def partOf : Uid := "ConceptGraph::PartOf"

/-- Peer to peer. -/
def connects : Uid := "ConceptGraph::Connects"

/-- Relation kind to a more generic relation kind. -/
def subrelationOf : Uid := "ConceptGraph::SubrelationOf"

/-! ### Components and networks -/

/-- The root class of components. -/
def component : Uid := "Component::Network::Component"

/-- The root class of interfaces. -/
def interface : Uid := "Component::Network::Interface"

/-- The root class of networks, which are components. -/
def network : Uid := "Component::Network::Network"

/-- Component to an interface that it owns. -/
def hasAInterface : Uid := "Component::Network::HasAInterface"

/-- Interface to interface. -/
def connectedTo : Uid := "Component::Network::ConnectedToInterface"

/-- Component to the network that it is a part of. -/
def partOfNetwork : Uid := "Component::Network::PartOfNetwork"

/-! ### Algorithms -/

/-- The root class of algorithms, which are networks. -/
def algorithm : Uid := "Software::Graph::Algorithm"

/-- The root class of the interfaces of algorithms. -/
def softwareInterface : Uid := "Software::Graph::Interface"

/-- The root class of inputs. -/
def input : Uid := "Software::Graph::Input"

/-- The root class of outputs. -/
def output : Uid := "Software::Graph::Output"

/-- The root class of implementations. -/
def implementation : Uid := "Software::Graph::Implementation"

/-- The root class of datatypes. -/
def datatype : Uid := "Software::Graph::Datatype"

/-- Algorithm to an input that it needs. -/
def needs : Uid := "Software::Graph::Needs"

/-- Algorithm to an output that it provides. -/
def provides : Uid := "Software::Graph::Provides"

/-- Input to the output that feeds it. -/
def dependsOn : Uid := "Software::Graph::DependsOn"

end DesignGraph.Vocabulary
