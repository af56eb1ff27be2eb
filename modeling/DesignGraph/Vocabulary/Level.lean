import DesignGraph.Relation.Assertion

/-! # Levels of vocabulary

A graph is opened at a level: as a plain store, with the generic relations, with components and networks,
or with algorithms. Each level declares all that the level below declares, then its own. Declaring is
idempotent: what is stored already is kept, and a fact that is stored already is not stored again. -/

namespace DesignGraph

/-- How much vocabulary a graph has. -/
inductive Level where
  /-- No vocabulary. -/
  | plain
  /-- Generic relations. -/
  | concepts
  /-- Components, interfaces and networks. -/
  | components
  /-- Algorithms, inputs, outputs, implementations and datatypes. -/
  | algorithms
  deriving DecidableEq, Repr

/-- One piece of vocabulary. -/
inductive Declaration where
  | concept (uid : Uid) (label : String)
  | relation (uid : Uid) (sources targets : List Uid) (label : String)
  | subrelation (child parent : Uid)
  | subclass (child parent : Uid)
  deriving DecidableEq, Repr

namespace Declaration

/-- Stores a piece of vocabulary. -/
def declare (g : Store) : Declaration → Store
  | concept uid label => (g.create uid label).2
  | relation uid sources targets label => (g.relate uid sources targets label).2
  | subrelation child parent => (g.subrelationOf (.single child) (.single parent)).2
  | subclass child parent => (g.isA (.single child) (.single parent)).2

end Declaration

namespace Level

open Vocabulary Declaration

/-- What the generic relations add. -/
def conceptDeclarations : List Declaration := [
  relation isA [] [] "IS-A",
  relation instanceOf [] [] "INSTANCE-OF",
  relation hasA [] [] "HAS-A",
  relation partOf [] [] "PART-OF",
  relation connects [] [] "CONNECTS",
  relation Vocabulary.subrelationOf [] [] "SUBRELATION-OF"]

/-- What components and networks add. -/
def componentDeclarations : List Declaration := [
  concept component "COMPONENT",
  concept interface "INTERFACE",
  concept network "NETWORK",
  relation hasAInterface [component, network] [interface] "HAS-A",
  subrelation hasAInterface hasA,
  relation connectedTo [interface] [interface] "CONNECTED-TO",
  subrelation connectedTo connects,
  relation partOfNetwork [component] [network] "PART-OF",
  subrelation partOfNetwork partOf,
  subclass network component]

/-- What algorithms add. -/
def algorithmDeclarations : List Declaration := [
  concept algorithm "ALGORITHM",
  concept softwareInterface "INTERFACE",
  concept input "INPUT",
  concept output "OUTPUT",
  concept implementation "IMPLEMENTATION",
  concept datatype "DATATYPE",
  subclass algorithm network,
  subclass softwareInterface interface,
  subclass input softwareInterface,
  subclass output softwareInterface,
  relation needs [algorithm] [input] "NEEDS",
  subrelation needs hasAInterface,
  relation provides [algorithm] [output] "PROVIDES",
  subrelation provides hasAInterface,
  relation dependsOn [input] [output] "DEPENDS-ON",
  subrelation dependsOn connects]

/-- All vocabulary of a level, in the order of its declaration. -/
def declarations : Level → List Declaration
  | plain => []
  | concepts => conceptDeclarations
  | components => conceptDeclarations ++ componentDeclarations
  | algorithms => conceptDeclarations ++ componentDeclarations ++ algorithmDeclarations

/-- Declares the vocabulary of a level. -/
def bootstrap (level : Level) (g : Store) : Store := level.declarations.foldl declare g

/-- The edges of a store with the vocabulary of a level, and no uid handed out yet. -/
def copy (level : Level) (g : Store) : Store := level.bootstrap g.renumbered

end Level

end DesignGraph
