import DesignGraph.Proofs.Model.Edit
import DesignGraph.Proofs.Model.Request

/-! # Actions

An `Action` is anything that can be done to a graph in use: a call on facts and relation kinds, an
operation that builds the model, a step of the generator, or a plain change of the store. No argument is
restricted, and an action may succeed, reject or fail. A graph with a history is one that was opened on any
store and went through a list of actions (`Ontology.since`).

* `Action.fills`: an action fills the fresh uids that it takes, a plain request for one excepted.
* `Action.edits`: an action is a list of edits, and sets no labels but those that it names (`Sets`).
* `Action.memory_apply`: an action leaves the memory, or asks for kinds and does nothing else. -/

namespace DesignGraph

open Store

/-- What can be done to a graph in use. Queries that name no kinds change nothing and are left out. -/
inductive Action where
  | call (c : Call)
  | change (op : Operation) (hop : op.Modelling)
  | instantiateDeep (classes : UidSet)
  | setLabel (uid : Uid) (label : String)
  | nextFree (base : Uid)
  | bootstrap
  | clearRejections
  | persist (settings : Settings) (algorithm : Uid) (name text : String)
  | generateEntity (settings : Settings) (relevant : UidSet) (algorithm : Uid)
  | generate (settings : Settings) (uid label : String)

/-- Takes over the store and the rejections of a step of the generator. -/
def Ontology.follow (o : Ontology) (t : Entity.Trace) : Ontology :=
  { o with store := t.store, rejections := o.rejections ++ t.rejected }

namespace Action

/-- The graph that an action leaves. -/
def apply (o : Ontology) : Action → Ontology
  | call c => c.apply o
  | change op hop => (o.perform op hop).2
  | instantiateDeep classes => { o with store := (o.store.instantiateDeep classes).2 }
  | setLabel uid label => { o with store := o.store.setLabel uid label }
  | nextFree base => { o with store := (o.store.nextFree base).2 }
  | bootstrap => o.bootstrap
  | clearRejections => o.clearRejections
  | persist settings algorithm name text =>
    o.follow (Entity.Trace.persist settings (.start o.store) algorithm name text).2
  | generateEntity settings relevant algorithm =>
    o.follow (Entity.Trace.generateEntity settings relevant (.start o.store) algorithm).2
  | generate settings uid label =>
    match o.store.generate settings uid label with
    | .error _ => o
    | .ok (_, t) => o.follow t

/-- The uids whose labels an action may set. -/
def Sets (u : Uid) : Action → Prop
  | setLabel uid _ => u = uid
  | persist settings _ name _ => u = Entity.Trace.implementationUid settings name
  | generateEntity settings _ _ => settings.Holds u
  | generate settings _ _ => settings.Holds u
  | _ => False

theorem fills_call (P : Uid → Prop) (o : Ontology) (c : Call) : Fills P o.store (c.apply o).store := by
  cases c with
  | add edge => exact fills_insert P o.store edge
  | create uid label => exact fills_create P o.store uid label
  | relate uid sources targets label => exact fills_relate P o.store uid sources targets label
  | subrelationOf kinds parents => exact fills_relateFrom P o.store _ kinds parents
  | relateFrom relation sources targets => exact fills_relateFrom P o.store relation sources targets
  | _ => exact .refl

theorem fills_perform (P : Uid → Prop) (o : Ontology) (op : Operation) (hop : op.Modelling) :
    Fills P o.store (o.perform op hop).2.store := by
  cases op with
  | createClass root u label superclasses => exact fills_createClass P o.store root u label superclasses
  | instantiate classes label => exact fills_instantiate P o.store classes label
  | instantiateComponents classes => exact fills_instantiateDeep P o.store _
  | hasInterface components interfaces => exact fills_assertBetween P o.store _ _ _ _ _
  | connectInterface sources targets => exact fills_assertBetween P o.store _ _ _ _ _
  | partOfNetwork components networks => exact fills_assertBetween P o.store _ _ _ _ _
  | exportInterfaces networks interfaces => exact fills_exportInterfaces P o.store networks interfaces
  | needsInterface algorithms inputs => exact fills_hasInterfaceAs P o.store _ _ algorithms inputs
  | providesInterface algorithms outputs => exact fills_hasInterfaceAs P o.store _ _ algorithms outputs
  | dependsOn inputs outputs => exact fills_assertBetween P o.store _ _ _ _ _
  | realizes implementations algorithms => exact fills_assertBetween P o.store _ _ _ _ _
  | generate => exact hop.elim

/-- **The step**: whatever an action does, it fills the fresh uids that it takes, unless it is a plain request
for one. It sets no label but those it may set. -/
theorem fills (o : Ontology) (a : Action) (ha : ∀ base, a ≠ nextFree base) :
    Fills (a.Sets ·) o.store (a.apply o).store := by
  cases a with
  | call c => exact fills_call _ o c
  | change op hop => exact fills_perform _ o op hop
  | instantiateDeep classes => exact fills_instantiateDeep _ o.store classes
  | setLabel uid label => exact fills_setLabel (P := (· = uid)) rfl o.store label
  | nextFree base => exact absurd rfl (ha base)
  | bootstrap => exact fills_bootstrap _ o.level o.store
  | clearRejections => exact .refl
  | persist settings algorithm name text =>
    exact Entity.Trace.fills_persist settings (.start o.store) algorithm name text
  | generateEntity settings relevant algorithm =>
    exact Entity.Trace.fills_generateEntity settings relevant (.start o.store) algorithm
  | generate settings uid label =>
    unfold apply
    simp only
    split
    · exact .refl
    · rename_i hrun
      exact fills_generate hrun

/-- Whatever an action does is a list of edits, and it sets no label but those it may set. -/
theorem edits (o : Ontology) (a : Action) : Edits (a.Sets ·) o.store (a.apply o).store := by
  by_cases ha : ∃ base, a = nextFree base
  · obtain ⟨base, rfl⟩ := ha
    exact edits_nextFree _ o.store base
  · exact (fills o a fun base h => ha ⟨base, h⟩).edits

/-- An action leaves the memory alone, or it asks for kinds and changes nothing else. -/
theorem memory_apply (o : Ontology) (a : Action) :
    (a.apply o).memory = o.memory ∨ ∃ kinds, a.apply o = (o.subrelations kinds).2 := by
  cases a with
  | call c =>
    cases hc : c.kinds? with
    | none => exact .inl (Call.memory_apply hc)
    | some kinds => exact .inr ⟨kinds, Call.apply_of_kinds? hc⟩
  | change op hop =>
    left
    cases op <;> first | rfl | exact hop.elim
  | generate settings uid label =>
    left
    unfold apply
    simp only
    split <;> rfl
  | _ => exact .inl rfl

end Action

namespace Ontology

/-- The graph after a history of actions. -/
def since (o : Ontology) (history : List Action) : Ontology := history.foldl Action.apply o

theorem since_append (o : Ontology) (history more : List Action) :
    o.since (history ++ more) = (o.since history).since more :=
  List.foldl_append

/-- **The run**: a history is a list of edits, and sets the labels that its actions may set. -/
theorem edits_since (o : Ontology) (history : List Action) :
    Edits (fun u => ∃ a ∈ history, a.Sets u) o.store (o.since history).store := by
  induction history generalizing o with
  | nil => exact .refl _ o.store
  | cons a history ih =>
    have hfirst := (a.edits o).mono (Q := fun u => ∃ b ∈ a :: history, b.Sets u)
      fun u hu => ⟨a, List.mem_cons_self, hu⟩
    refine hfirst.trans ((ih (a.apply o)).mono ?_)
    rintro u ⟨b, hb, hu⟩
    exact ⟨b, List.mem_cons_of_mem a hb, hu⟩

/-- A graph that was opened and has a history comes about from no edges at all. -/
theorem edits_opened (level : Level) (g : Store) (history : List Action) :
    Edits (fun _ => True) .empty ((ofStore level g).since history).store :=
  (edits_copy _ level g).trans ((edits_since (ofStore level g) history).mono fun _ _ => trivial)

end Ontology

end DesignGraph
