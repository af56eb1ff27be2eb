import DesignGraph.Proofs.Instance.Twin
import DesignGraph.Proofs.Model.Bootstrap
import DesignGraph.Proofs.Model.Run
import DesignGraph.Proofs.Network.Twin
import DesignGraph.Proofs.Relation.Memory

/-! # Requests

A `Request` is one call on a graph in use, with the answer it gives: a query (`Query`), a query that follows
facts of a built-in kind by way of the memory, or an operation that builds the model. Two graphs are in
step (`Ontology.InStep`) if they hold the same edges and neither the numbers handed out nor what is
remembered shows on them. A request gets the same answer from both and leaves them in step
(`InStep.respond`), and so does a run of requests (`InStep.run`). -/

namespace DesignGraph

open Store (Orderly Twin)

/-- What a request can be answered with. -/
inductive Answer where
  | uid (u : Option Uid)
  | uids (s : UidSet)
  | copies (tops : Except Copying.Failure UidSet)
  | edge (e : Option Hyperedge)
  | edges (es : List Hyperedge)
  | text (s : String)
  | truth (b : Bool)
  | number (n : Nat)
  | statistics (s : Ontology.Statistics)

/-- A query that takes no relation kind, with its arguments. Asking for a fresh uid is none, as it takes the
uid away. -/
inductive Query where
  | edges
  | uids
  | size
  | contains (u : Uid)
  | get (u : Uid)
  | labelOf (u : Uid)
  | find (label : String) (kind : Option Kind)
  | filterByLabel (s : UidSet) (label : String)
  | subclasses (s : UidSet) (label : String) (d : Direction)
  | directSubclasses (s : UidSet) (label : String) (d : Direction)
  | instances (s : UidSet) (label : String) (d : Direction)
  | children (s : UidSet) (label : String) (d : Direction)
  | endpoints (s : UidSet) (label : String) (d : Direction)
  | classes (root : ClassRoot) (label : String) (below : UidSet)
  | members (root : ClassRoot) (label classLabel : String)
  | interfacesOf (s : UidSet) (label : String) (d : Direction)
  | componentsOf (s : UidSet) (label : String) (d : Direction)
  | inputsOf (s : UidSet) (label : String)
  | outputsOf (s : UidSet) (label : String)
  | dependenciesOf (s : UidSet) (label : String)
  | implementationsOf (s : UidSet) (label : String)
  | statistics

/-- What a graph answers to a query. -/
def Query.answer (o : Ontology) : Query → Answer
  | edges => .edges o.store.edges
  | uids => .uids o.store.uids
  | size => .number o.store.size
  | contains u => .truth (decide (u ∈ o.store))
  | get u => .edge (o.store.get? u)
  | labelOf u => .text (o.store.labelOf u)
  | find label kind => .uids (o.store.find label kind)
  | filterByLabel s label => .uids (o.store.filterByLabel s label)
  | subclasses s label d => .uids (o.store.subclasses s label d)
  | directSubclasses s label d => .uids (o.store.directSubclasses s label d)
  | instances s label d => .uids (o.store.instances s label d)
  | children s label d => .uids (o.store.children s label d)
  | endpoints s label d => .uids (o.store.endpoints s label d)
  | classes root label below => .uids (o.store.classes root label below)
  | members root label classLabel => .uids (o.store.members root label classLabel)
  | interfacesOf s label d => .uids (o.store.interfacesOf s label d)
  | componentsOf s label d => .uids (o.store.componentsOf s label d)
  | inputsOf s label => .uids (o.store.inputsOf s label)
  | outputsOf s label => .uids (o.store.outputsOf s label)
  | dependenciesOf s label => .uids (o.store.dependenciesOf s label)
  | implementationsOf s label => .uids (o.store.implementationsOf s label)
  | statistics => .statistics o.statistics

/-- A call on a graph in use. -/
inductive Request where
  | ask (query : Query)
  /-- Follows facts of a built-in kind, as the structural queries do, by way of the memory. -/
  | follow (kind : Uid) (hkind : kind ∈ Store.vocabulary) (s : UidSet) (label : String) (d : Direction)
  | change (op : Operation) (hop : op.Modelling)

namespace Ontology

/-! ### Answers -/

/-- Takes over an outcome and answers with its result. -/
def settle (o : Ontology) (outcome : Outcome) : Answer × Ontology :=
  let (u, o) := o.record outcome
  (.uid u, o)

/-- Performs an operation by which a model is built. -/
def perform (o : Ontology) : (op : Operation) → op.Modelling → Answer × Ontology
  | .createClass root u label superclasses, _ => o.settle (o.store.createClass root u label superclasses)
  | .instantiate classes label, _ =>
    let (u, g) := o.store.instantiate classes label
    (.uid u, { o with store := g })
  | .instantiateComponents classes, _ =>
    let (tops, g) := o.store.instantiateComponents classes
    (.copies tops, { o with store := g })
  | .hasInterface components interfaces, _ => o.settle (o.store.hasInterface components interfaces)
  | .connectInterface sources targets, _ => o.settle (o.store.connectInterface sources targets)
  | .partOfNetwork components networks, _ => o.settle (o.store.partOfNetwork components networks)
  | .exportInterfaces networks interfaces, _ => o.settle (o.store.exportInterfaces networks interfaces)
  | .needsInterface algorithms inputs, _ => o.settle (o.store.needsInterface algorithms inputs)
  | .providesInterface algorithms outputs, _ => o.settle (o.store.providesInterface algorithms outputs)
  | .dependsOn inputs outputs, _ => o.settle (o.store.dependsOn inputs outputs)
  | .realizes implementations algorithms, _ => o.settle (o.store.realizes implementations algorithms)

/-- The answer to a request, and the graph after it. -/
def respond (o : Ontology) : Request → Answer × Ontology
  | .ask query => (query.answer o, o)
  | .follow kind _ s label d =>
    let (found, o) := o.related s (.single kind) label d
    (.uids found, o)
  | .change op hop => o.perform op hop

/-- The graph after a run of requests. -/
def after (o : Ontology) (requests : List Request) : Ontology :=
  requests.foldl (fun o request => (o.respond request).2) o

/-- The answers to a run of requests, one after the other. -/
def answers (o : Ontology) : List Request → List Answer
  | [] => []
  | request :: requests => (o.respond request).1 :: (o.respond request).2.answers requests

end Ontology

/-! ### Memories of built-in kinds -/

/-- What is remembered of a built-in kind is what the vocabulary says of it. -/
def Memory.Right (m : Memory) : Prop :=
  ∀ k ∈ Store.vocabulary, ∀ kinds, m.answers.lookup (.single k) = some kinds →
    kinds = Store.vocabulary.subrelations (.single k)

namespace Store

variable {g : Store} {m : Memory} {k : Uid}

theorem right_remembered (hm : m.Right) : (g.remembered m).Right := by
  unfold remembered
  split
  · exact hm
  · exact fun k _ kinds h => by cases h

/-- **The memory does not show**: of a built-in kind, what is remembered is what holds now. -/
theorem Regular.answerFrom_eq (hg : Regular g) (hm : m.Right) (hk : k ∈ vocabulary) :
    (g.answerFrom m (.single k)).1 = g.subrelations (.single k) ∧ (g.answerFrom m (.single k)).2.Right := by
  have hm' := right_remembered (g := g) hm
  have hanswer : (g.answerFrom m (.single k)).1 = g.subrelations (.single k) := by
    rw [fst_answerFrom]
    cases hl : (g.remembered m).answers.lookup (.single k) with
    | none => rfl
    | some kinds => exact (hm' k hk kinds hl).trans (hg.subrelations_eq hk).symm
  refine ⟨hanswer, fun k' hk' kinds hl => ?_⟩
  rw [lookup_answerFrom] at hl
  split at hl
  · rename_i hsame
    rw [hsame, ← Option.some.inj hl, hanswer]
    exact hg.subrelations_eq hk
  · exact hm' k' hk' kinds hl

end Store

namespace Ontology

/-! ### Graphs in step -/

/-- A graph of algorithms whose numbers handed out and whose memory do not show. -/
structure Settled (o : Ontology) : Prop where
  level : o.level = .algorithms
  regular : Store.Regular o.store
  orderly : Orderly o.store
  memory : o.memory.Right

/-- Two such graphs with the same edges. The first one has recorded some rejections before the second one
came about. -/
structure InStep (earlier : List Rejection) (o o' : Ontology) : Prop where
  left : Settled o
  right : Settled o'
  edges : o'.store.edges = o.store.edges
  rejections : o.rejections = earlier ++ o'.rejections

theorem Settled.refl {o : Ontology} (ho : Settled o) : InStep [] o o := ⟨ho, ho, rfl, rfl⟩

/-- The kinds below a built-in one are the same whether they are remembered or looked up. -/
theorem Settled.related {o : Ontology} (ho : Settled o) {kind : Uid} (hkind : kind ∈ Store.vocabulary)
    (s : UidSet) (label : String) (d : Direction) :
    (o.related s (.single kind) label d).1 = o.store.related kind s label d ∧
      Settled (o.related s (.single kind) label d).2 := by
  obtain ⟨hkinds, hmem⟩ := ho.regular.answerFrom_eq ho.memory hkind
  exact ⟨congrArg (o.store.neighbours s · label d) hkinds, ho.level, ho.regular, ho.orderly, hmem⟩

namespace InStep

variable {earlier : List Rejection} {o o' : Ontology} (h : InStep earlier o o')

include h

theorem twin : Twin o.store o'.store := ⟨h.edges, h.left.orderly, h.right.orderly⟩

theorem answer_eq (query : Query) : query.answer o' = query.answer o := by
  let read : Store → Answer := fun g => query.answer ⟨.algorithms, g, .empty, []⟩
  have hread : ∀ {o : Ontology}, Settled o → query.answer o = read o.store := by
    intro o ho
    obtain ⟨level, g, m, r⟩ := o
    obtain rfl : level = .algorithms := ho.level
    cases query <;> rfl
  rw [hread h.left, hread h.right]
  exact h.twin.reads read fun g => by cases query <;> rfl

/-- What is left when both stores make the same change and record the same rejections. -/
theorem replace {g g' : Store} (hg : Twin g g') (hreg : Store.Regular g) {r r' : List Rejection}
    (hr : r = earlier ++ r') :
    InStep earlier { o with store := g, rejections := r } { o' with store := g', rejections := r' } where
  left := ⟨h.left.level, hreg, hg.left, h.left.memory⟩
  right := ⟨h.right.level, hreg.of_edges hg.edges, hg.right, h.right.memory⟩
  edges := hg.edges
  rejections := hr

theorem settle {outcome outcome' : Outcome} (hout : outcome.Alike outcome')
    (hreg : Store.Regular outcome.store) :
    (o'.settle outcome').1 = (o.settle outcome).1 ∧
      InStep earlier (o.settle outcome).2 (o'.settle outcome').2 := by
  refine ⟨congrArg Answer.uid hout.result, h.replace hout.store hreg ?_⟩
  rw [h.rejections, hout.rejected, List.append_assoc]

/-- An operation gives the same result on both graphs and leaves them in step. -/
theorem perform (op : Operation) (hop : op.Modelling) :
    (o'.perform op hop).1 = (o.perform op hop).1 ∧
      InStep earlier (o.perform op hop).2 (o'.perform op hop).2 := by
  have hreg : Store.Regular (op.apply o.store) := op.regular h.left.regular
  cases op with
  | createClass root u label superclasses =>
    exact h.settle (h.twin.createClass root u label superclasses) hreg
  | instantiate classes label =>
    have hnew := h.twin.instantiate classes label
    exact ⟨congrArg Answer.uid hnew.1, h.replace hnew.2 hreg h.rejections⟩
  | instantiateComponents classes =>
    have hnew := h.twin.instantiateComponents classes
    exact ⟨congrArg Answer.copies hnew.1, h.replace hnew.2 hreg h.rejections⟩
  | hasInterface components interfaces => exact h.settle (h.twin.hasInterface components interfaces) hreg
  | connectInterface sources targets => exact h.settle (h.twin.connectInterface sources targets) hreg
  | partOfNetwork components networks => exact h.settle (h.twin.partOfNetwork components networks) hreg
  | exportInterfaces networks interfaces => exact h.settle (h.twin.exportInterfaces networks interfaces) hreg
  | needsInterface algorithms inputs => exact h.settle (h.twin.needsInterface algorithms inputs) hreg
  | providesInterface algorithms outputs =>
    exact h.settle (h.twin.providesInterface algorithms outputs) hreg
  | dependsOn inputs outputs => exact h.settle (h.twin.dependsOn inputs outputs) hreg
  | realizes implementations algorithms => exact h.settle (h.twin.realizes implementations algorithms) hreg
  | generate => exact hop.elim

theorem follow {kind : Uid} (hkind : kind ∈ Store.vocabulary) (s : UidSet) (label : String) (d : Direction) :
    (o'.related s (.single kind) label d).1 = (o.related s (.single kind) label d).1 ∧
      InStep earlier (o.related s (.single kind) label d).2 (o'.related s (.single kind) label d).2 := by
  obtain ⟨hfound, hleft⟩ := h.left.related hkind s label d
  obtain ⟨hfound', hright⟩ := h.right.related hkind s label d
  refine ⟨?_, hleft, hright, h.edges, h.rejections⟩
  rw [hfound, hfound']
  exact h.twin.reads (·.related kind s label d) fun _ => rfl

/-- **The step**: both graphs give the same answer to a request, and stay in step. -/
theorem respond (request : Request) : (o'.respond request).1 = (o.respond request).1 ∧
    InStep earlier (o.respond request).2 (o'.respond request).2 := by
  cases request with
  | ask query => exact ⟨h.answer_eq query, h⟩
  | follow kind hkind s label d =>
    have hstep := h.follow hkind s label d
    exact ⟨congrArg Answer.uids hstep.1, hstep.2⟩
  | change op hop => exact h.perform op hop

omit h in
/-- **The run**: however long requests go on, the answers are the same. -/
theorem run (requests : List Request) : ∀ {o o' : Ontology}, InStep earlier o o' →
    o'.answers requests = o.answers requests ∧ InStep earlier (o.after requests) (o'.after requests) := by
  induction requests with
  | nil => exact fun h => ⟨rfl, h⟩
  | cons request requests ih =>
    intro o o' h
    obtain ⟨hanswer, hnext⟩ := h.respond request
    obtain ⟨hanswers, hlast⟩ := ih hnext
    exact ⟨congrArg₂ List.cons hanswer hanswers, hlast⟩

end InStep

end Ontology

end DesignGraph
