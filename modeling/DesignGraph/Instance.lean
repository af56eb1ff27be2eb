import DesignGraph.Relation.Assertion

/-! # Instances

`instantiate` makes a new instance of classes: a concept under a fresh uid derived from the first known
class, which lends it its label unless one is given, and a fact that it realizes all the known classes.
`instantiateDeep` makes instances together with copies of all that the classes own or contain.

The deep copy of a class is a walk. Its state is a `Copying`: the store so far, the copy of each template
met so far, and the templates whose own children have not been looked at yet. `expand` takes the next of
these: it copies every structural child that has no copy yet and joins the copies as the templates are
joined. A template enters the queue when it gets its copy, so it is expanded once. Facts among the copies
never join them to templates, so the walk stays among the uids that were there before, and it ends; only
where a fact mentions a uid that is not stored, or realizing a class counts as owning or containing it,
can the walk run into its own copies. It is cut off after as many templates as `stepBound` allows. -/

namespace DesignGraph

namespace Store

/-- A new instance of the known ones among the classes, if there is one. -/
def instantiate (g : Store) (classes : UidSet) (label : String) : Option Uid × Store :=
  let classes := g.known classes
  match classes.toList.head? with
  | none => (none, g)
  | some first =>
    let (uid, g) := g.nextFree first
    let (_, g) := g.create uid (if label = "" then g.labelOf first else label)
    (some uid, (g.instanceOf (.single uid) classes).2)

end Store

/-! ### The walk of a deep copy -/

/-- A deep copy under way. -/
structure Copying where
  store : Store
  /-- Each template with its copy, the latest first. -/
  copies : List (Uid × Uid)
  /-- The templates that wait for their children to be copied, the next one first. -/
  todo : List Uid

namespace Copying

/-- Why a deep copy was given up. -/
inductive Failure where
  /-- A child is not stored and realizes no known class. -/
  | missingChild
  /-- The walk met more templates than there can be. -/
  | unbounded
  deriving DecidableEq, Repr

/-- The copy of a template, made now if there is none: an instance of the classes of the template, or of
the template itself if that is no instance, under the same label. -/
def copyChild (c : Copying) (child : Uid) : Option (Uid × Copying) :=
  match c.copies.lookup child with
  | some copy => some (copy, c)
  | none =>
    let classes := c.store.classesOf child
    let classes := if classes.isEmpty then .single child else classes
    match c.store.instantiate classes (c.store.labelOf child) with
    | (none, _) => none
    | (some copy, g) => some (copy, ⟨g, (child, copy) :: c.copies, c.todo ++ [child]⟩)

/-- Which end of the fact the owner of a child stands at. -/
inductive End where
  | source
  | target
  deriving DecidableEq, Repr

/-- Copies a child and joins the copy to its owner, the owner at the given end. If the child cannot be
copied, what is left is the store. -/
def attach (owner : Uid) (ownerEnd : End) (relation : Uid) (c : Copying) (child : Uid) :
    Except Store Copying :=
  match c.copyChild child with
  | none => .error c.store
  | some (copy, c) =>
    let (sources, targets) := match ownerEnd with
      | .source => (UidSet.single owner, UidSet.single copy)
      | .target => (UidSet.single copy, UidSet.single owner)
    .ok { c with store := (c.store.relateFrom relation sources targets).2 }

/-- The facts of the given kinds that hold `template` at the given end, each with its kind and the uids at
the other end. -/
def links (g : Store) (kinds : UidSet) (template : Uid) : End → List (Uid × List Uid)
  | .source => (g.facts.filter fun f => decide (f.1 ∈ kinds) && f.2.sources.contains template).map
      fun f => (f.1, f.2.targets)
  | .target => (g.facts.filter fun f => decide (f.1 ∈ kinds) && f.2.targets.contains template).map
      fun f => (f.1, f.2.sources)

/-- Copies what `template` holds over facts of the given kinds, and attaches it to `owner`. -/
def attachAll (kinds : UidSet) (template owner : Uid) (ownerEnd : End) (c : Copying) :
    Except Store Copying :=
  (links c.store kinds template ownerEnd).foldlM (fun c link =>
    link.2.foldlM (attach owner ownerEnd link.1) c) c

/-- Copies the structural children of one template. -/
def expand (owning containing : UidSet) (template : Uid) (c : Copying) : Except Store Copying := do
  let owner := (c.copies.lookup template).getD template
  let c ← attachAll owning template owner .source c
  attachAll containing template owner .target c

/-- Expands the queued templates, at most `n` of them. -/
def run (owning containing : UidSet) : Nat → Copying → Except (Failure × Store) Copying
  | n, c =>
    match c.todo with
    | [] => .ok c
    | template :: todo =>
      match n with
      | 0 => .error (.unbounded, c.store)
      | n + 1 =>
        match expand owning containing template { c with todo } with
        | .error g => .error (.missingChild, g)
        | .ok c => run owning containing n c

/-- More templates than a walk among the stored uids can meet. -/
def stepBound (g : Store) : Nat :=
  let mentioned := g.edges.foldl (fun total e => total + (e.endpoints.length + 1)) 0
  (mentioned + 1) * (mentioned + 1)

/-- Repeats a fact between copies, if all its endpoints have one. -/
def connectCopies (copies : List (Uid × Uid)) (g : Store) (f : Uid × Hyperedge) : Store :=
  let copyOf := fun u => copies.lookup u
  if f.2.endpoints.all fun u => (copyOf u).isSome then
    (g.relateFrom f.1 (.ofList (f.2.sources.filterMap copyOf))
      (.ofList (f.2.targets.filterMap copyOf))).2
  else g

/-- Repeats the connections among the templates between their copies. -/
def connect (c : Copying) : Store :=
  let kinds := c.store.subrelations (.single Vocabulary.connects)
  let templates := UidSet.ofList (c.copies.map (·.1))
  let facts := c.store.facts.filter fun f =>
    decide (f.1 ∈ kinds) && Store.meetsSome f.2.sources (some templates)
  facts.foldl (connectCopies c.copies) c.store

end Copying

namespace Store

/-- Copies one class with its structure; an unknown class has no copy. -/
def instantiateClass (owning containing : UidSet) (g : Store) (u : Uid) :
    Except (Copying.Failure × Store) (Option Uid × Store) :=
  match g.instantiate (.single u) "" with
  | (none, g) => .ok (none, g)
  | (some top, g) => do
    let c ← Copying.run owning containing (Copying.stepBound g) ⟨g, [(u, top)], [u]⟩
    return (some top, c.connect)

/-- Copies one more class; its copy joins the top-level instances made so far. -/
def instantiateNext (owning containing : UidSet) (made : UidSet × Store) (u : Uid) :
    Except (Copying.Failure × Store) (UidSet × Store) := do
  let (top, g) ← instantiateClass owning containing made.2 u
  return (made.1.insertAll top.toList, g)

/-- Copies each known class with its structure and gives the new top-level instances. What is owned and
what is contained is decided once, before the first copy. -/
def instantiateDeep (g : Store) (classes : UidSet) : Except Copying.Failure UidSet × Store :=
  let owning := g.subrelations (.single Vocabulary.hasA)
  let containing := g.subrelations (.single Vocabulary.partOf)
  match classes.toList.foldlM (instantiateNext owning containing) (∅, g) with
  | .ok (tops, g) => (.ok tops, g)
  | .error (failure, g) => (.error failure, g)

end Store

end DesignGraph
