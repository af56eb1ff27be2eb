import DesignGraph.Entity.Generate
import DesignGraph.Ontology

/-! # Operations and the models they reach

An `Operation` is one call that can change a model, with all its arguments; none is restricted, so a uid
may be unknown, or play a role that it was not made for. `Reached admits g` says that `g` comes about from
the model without any content by operations that are admitted. -/

namespace DesignGraph

/-- An operation that can change a model, with its arguments. -/
inductive Operation where
  | createClass (root : ClassRoot) (uid : Uid) (label : String) (superclasses : UidSet)
  | instantiate (classes : UidSet) (label : String)
  | instantiateComponents (classes : UidSet)
  | hasInterface (components interfaces : List Uid)
  | connectInterface (sources targets : List Uid)
  | partOfNetwork (components networks : List Uid)
  | exportInterfaces (networks : UidSet) (interfaces : List Uid)
  | needsInterface (algorithms inputs : UidSet)
  | providesInterface (algorithms outputs : UidSet)
  | dependsOn (inputs outputs : List Uid)
  | realizes (implementations algorithms : List Uid)
  | generate (settings : Settings) (uid label : String)

namespace Operation

/-- The store that an operation leaves, whether it succeeds or not. -/
def apply (g : Store) : Operation → Store
  | createClass root uid label superclasses => (g.createClass root uid label superclasses).store
  | instantiate classes label => (g.instantiate classes label).2
  | instantiateComponents classes => (g.instantiateComponents classes).2
  | hasInterface components interfaces => (g.hasInterface components interfaces).store
  | connectInterface sources targets => (g.connectInterface sources targets).store
  | partOfNetwork components networks => (g.partOfNetwork components networks).store
  | exportInterfaces networks interfaces => (g.exportInterfaces networks interfaces).store
  | needsInterface algorithms inputs => (g.needsInterface algorithms inputs).store
  | providesInterface algorithms outputs => (g.providesInterface algorithms outputs).store
  | dependsOn inputs outputs => (g.dependsOn inputs outputs).store
  | realizes implementations algorithms => (g.realizes implementations algorithms).store
  | generate settings uid label =>
    match g.generate settings uid label with
    | .error _ => g
    | .ok (_, t) => t.store

/-- All operations by which a model is built, so no run of the generator. -/
def Modelling : Operation → Prop
  | generate .. => False
  | _ => True

/-- All operations but the deep copies. -/
def Shallow : Operation → Prop
  | instantiateComponents .. => False
  | _ => True

end Operation

/-- The model without any content: the vocabulary of algorithms. -/
def Store.blank : Store := (Ontology.ofStore .algorithms .empty).store

/-- The models that admitted operations lead to. -/
inductive Reached (admits : Operation → Prop) : Store → Prop
  | blank : Reached admits Store.blank
  | apply {g : Store} {op : Operation} (hg : Reached admits g) (hop : admits op) :
    Reached admits (op.apply g)

end DesignGraph
