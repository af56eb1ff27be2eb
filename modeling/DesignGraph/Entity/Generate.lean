import DesignGraph.Entity.Extract
import DesignGraph.Network.Assertion
import DesignGraph.Network.Factory

/-! # Generator runs

`generateEntity` describes an algorithm and stores the text as the label of an implementation class that
realizes it; describing it again replaces the text. `generate` does so for all selected algorithms, and
with recursive settings for everything they are composed of, parts first. A target whose composition has a
cycle is left out, an algorithm whose text cannot be stored fails, and neither stops the others. -/

namespace DesignGraph

namespace Entity

/-- The stored description of an algorithm. -/
structure Generated where
  algorithm : Uid
  label : String
  implementation : Uid
  text : String
  parts : List Uid
  deriving DecidableEq, Repr

namespace Generated

/-- Whether the entity instantiates others. -/
def isComposite (e : Generated) : Bool := !e.parts.isEmpty

/-- The entity in one line. -/
def display (e : Generated) : String :=
  "GeneratedEntity(" ++ e.label ++ ", parts=" ++ toString e.parts.length ++ ")"

end Generated

/-- Why a description could not be stored. -/
inductive Failure where
  | unknownAlgorithm (algorithm : Uid)
  | cannotCreate (implementation algorithm : Uid)
  | cannotRealize (implementation algorithm : Uid)
  deriving DecidableEq, Repr

namespace Failure

/-- The algorithm that failed. -/
def algorithm : Failure → Uid
  | unknownAlgorithm algorithm => algorithm
  | cannotCreate _ algorithm => algorithm
  | cannotRealize _ algorithm => algorithm

/-- The failure in words. -/
def message : Failure → String
  | unknownAlgorithm algorithm => "Unknown algorithm: " ++ algorithm
  | cannotCreate implementation _ => "Cannot create implementation " ++ implementation
  | cannotRealize implementation algorithm => implementation ++ " cannot realize " ++ algorithm

end Failure

/-- No algorithm matches the uid and the label that were asked for. -/
structure NoMatch where
  uid : String
  label : String
  deriving DecidableEq, Repr

/-- The missing match in words. -/
def NoMatch.message (_ : NoMatch) : String := "No algorithm found."

/-- A cycle in words. -/
def cycleMessage (cycle : Cycle) : String := "Composition cycle: " ++ " -> ".intercalate cycle

/-- The outcome of a run. -/
structure Report where
  generated : List Generated
  /-- Each algorithm that failed, with the reason. -/
  failed : List (Uid × String)
  deriving DecidableEq, Repr

namespace Report

/-- Nothing failed. -/
def ok (r : Report) : Bool := r.failed.isEmpty

/-- The entity of an algorithm. -/
def entity? (r : Report) (algorithm : Uid) : Option Generated :=
  r.generated.find? fun e => e.algorithm == algorithm

end Report

/-- What a run has done so far: the store, the rejections and the notices. -/
structure Trace where
  store : Store
  rejected : List Rejection
  notices : List Notice

namespace Trace

/-- A run that has done nothing. -/
def start (g : Store) : Trace := ⟨g, [], []⟩

/-- Adds a notice. -/
def note (t : Trace) (notices : List Notice) : Trace := { t with notices := t.notices ++ notices }

/-- Takes over an outcome. -/
def take (t : Trace) (o : Outcome) : Trace :=
  { t with store := o.store, rejected := t.rejected ++ o.rejected }

/-- The uid under which a description of this name is stored. -/
def implementationUid (s : Settings) (name : String) : Uid := s.implementationUid ++ "::" ++ name

/-- Stores a text as an implementation that realizes the algorithm. -/
def persist (s : Settings) (t : Trace) (algorithm : Uid) (name text : String) :
    Except Failure Uid × Trace :=
  let t := t.take (t.store.createClass .implementation s.implementationUid s.implementationLabel ∅)
  let uid := implementationUid s name
  let created := t.store.createClass .implementation uid text (.single s.implementationUid)
  let t := t.take created
  if created.result.isNone then (.error (.cannotCreate uid algorithm), t)
  else
    let t := { t with store := t.store.setLabel uid text }
    let realized := t.store.realizes [uid] [algorithm]
    let t := t.take realized
    if realized.result.isNone then (.error (.cannotRealize uid algorithm), t) else (.ok uid, t)

/-- Describes an algorithm and stores the description. -/
def generateEntity (s : Settings) (relevant : UidSet) (t : Trace) (algorithm : Uid) :
    Except Failure Generated × Trace :=
  if algorithm ∉ t.store then (.error (.unknownAlgorithm algorithm), t)
  else
    let c := t.store.context algorithm
    let text := (t.store.design s relevant c).text
    let t := t.note (t.store.typeNotices relevant c)
    match persist s t algorithm c.name text with
    | (.error failure, t) => (.error failure, t)
    | (.ok uid, t) =>
      (.ok ⟨algorithm, c.name, uid, text, c.parts.toList⟩, t.note [.generated c.name c.parts.size])

/-- Generates one algorithm of a run and enters it into the report. -/
def generateNext (s : Settings) (relevant : UidSet) (state : Report × Trace) (algorithm : Uid) :
    Report × Trace :=
  let (report, t) := state
  match generateEntity s relevant t algorithm with
  | (.ok e, t) => ({ report with generated := report.generated ++ [e] }, t)
  | (.error failure, t) =>
    ({ report with failed := report.failed ++ [(algorithm, failure.message)] },
      t.note [.failed algorithm failure.message])

end Trace

/-- The algorithms of a run in the order of their generation, and the targets left out. -/
structure Plan where
  order : List Uid
  /-- Each target whose composition has a cycle, with that cycle. -/
  cyclic : List (Uid × Cycle)

namespace Plan

/-- Adds the ones among the uids that are not excluded and not planned yet. -/
def add (excluded : UidSet) (p : Plan) (uids : List Uid) : Plan :=
  { p with order := uids.foldl (fun order u =>
      if u ∈ excluded ∨ u ∈ order then order else order ++ [u]) p.order }

/-- Plans a target. -/
def addTarget (s : Settings) (composition : Digraph) (excluded : UidSet) (p : Plan) (target : Uid) :
    Plan :=
  match composition.order target with
  | .error cycle => { p with cyclic := p.cyclic ++ [(target, cycle)] }
  | .ok order => p.add excluded (if s.recursive then order else [target])

end Plan

end Entity

open Entity

namespace Store

/-- The root of algorithms and the classes that hold generated texts. -/
def notGenerated (g : Store) : UidSet :=
  (g.allClasses .implementation).insert ClassRoot.algorithm.uid

/-- The algorithm classes with this label that code can be generated for. -/
def candidates (g : Store) (label : String) : UidSet := g.classes .algorithm label ∅ \ g.notGenerated

/-- The candidates with this label and, unless it is empty, this uid. -/
def select (g : Store) (uid label : String) : Except NoMatch UidSet :=
  let all := g.candidates label
  let selected := if uid = "" then all else all ∩ .single uid
  if selected.isEmpty then .error ⟨uid, label⟩ else .ok selected

/-- The plan for a set of targets. -/
def plan (g : Store) (s : Settings) (targets : UidSet) : Plan :=
  targets.toList.foldl (Plan.addTarget s g.composition g.notGenerated) ⟨[], []⟩

/-- A run over all selected algorithms. -/
def generate (g : Store) (s : Settings) (uid label : String) : Except NoMatch (Report × Trace) :=
  match g.select uid label with
  | .error e => .error e
  | .ok targets =>
    let relevant := g.relevantDatatypes s
    let plan := g.plan s targets
    let skipped := plan.cyclic.map fun c => (c.1, cycleMessage c.2)
    let start := (Trace.start g).note (skipped.map fun c => .skipped c.1 c.2)
    let (report, t) := plan.order.foldl (Trace.generateNext s relevant) (⟨[], skipped⟩, start)
    .ok (report, t.note [.finished report.generated.length report.failed.length])

end Store

end DesignGraph
