import DesignGraph.Yaml.Node.Unfold
import DesignGraph.Yaml.Token.Stream

/-! # The grammar of a document

`Grammar.node` reads the tokens of one node and `Grammar.document` those of a document with the
directives in front of it; `read` gives the value of a whole text, and `readPortions` that of a file. It is
null if there is no document. Something may be left out wherever a value is expected and the tokens of the
next entry follow: that is the null value.

A collection has its number before its parts are read, so that an alias inside of it can name it.

Every call consumes a token, or is followed by one that does, so twice the number of tokens bounds the
depth of calls; the functions count down from there. -/

namespace DesignGraph.Yaml

/-- What is left of the tokens, the nodes so far, and those with a name; of a name given twice the document
is malformed. -/
structure Grammar.State where
  tokens : List Token
  nodes : Nodes
  anchors : List (String × NodeId)

/-- Reading of tokens. -/
abbrev Grammar := StateT Grammar.State (Except Fault)

namespace Grammar

/-- Where a node stands: between brackets, in a block, or as the key or value of a block mapping, where
the items of a list need not be indented. -/
inductive Surroundings where
  | brackets
  | block
  | entry
  deriving DecidableEq, Repr

/-- The next token. -/
def peek : Grammar Token := do
  match (← get).tokens with
  | .fault f :: _ => throw f
  | t :: _ => return t
  | [] => throw .malformed

/-- Passes over a token. -/
def skip : Grammar Unit := modify fun s => { s with tokens := s.tokens.drop 1 }

/-- Takes the next token if it is the one given. -/
def accept (t : Token) : Grammar Bool := do
  if (← peek) = t then skip; return true
  return false

/-- Takes the next token, which must be the one given. -/
def expect (t : Token) : Grammar Unit := do
  if !(← accept t) then throw .malformed

/-- Whether the next token is one of those given. -/
def sees (tokens : List Token) : Grammar Bool := do return tokens.contains (← peek)

/-! ### Names and tags -/

/-- Gives a node a name. -/
def bind (anchor? : Option String) (id : NodeId) : Grammar Unit := do
  match anchor? with
  | none => return
  | some name =>
    if (← get).anchors.any (·.1 == name) then throw .malformed
    modify fun s => { s with anchors := (name, id) :: s.anchors }

/-- The node with a name. -/
def named (name : String) : Grammar NodeId := do
  match (← get).anchors.lookup name with
  | none => throw .malformed
  | some id => return id

/-- Adds a node. -/
def add (anchor? : Option String) (n : Node) : Grammar NodeId := do
  let id := (← get).nodes.size
  bind anchor? id
  modify fun s => { s with nodes := s.nodes.push n }
  return id

/-- Adds a collection and reads its parts. -/
def collection {α : Type} (anchor? : Option String) (tag : Tag) (content : List α → Content)
    (read : Grammar (List α)) : Grammar NodeId := do
  let id ← add anchor? ⟨tag, content []⟩
  let parts ← read
  modify fun s => { s with nodes := s.nodes.setContent id (content parts) }
  return id

/-- The name that follows, if there is one. -/
def anchor? : Grammar (Option String) := do
  match ← peek with
  | .anchor name => skip; return some name
  | _ => return none

/-- The tag that follows, if there is one. -/
def tag? : Grammar (Option TagText) := do
  match ← peek with
  | .tag t => skip; return some t
  | _ => return none

/-- A name and a tag in either order. -/
def properties : Grammar (Option String × Option TagText) := do
  match ← anchor? with
  | some name => return (name, ← tag?)
  | none =>
    let t? ← tag?
    if t?.isSome then return (← anchor?, t?)
    return (none, none)

/-- The full name that a tag stands for. -/
def fullName (handles : List (String × String)) (t : TagText) : Grammar String := do
  match t.handle with
  | none => return t.suffix
  | some handle =>
    match handles.lookup handle with
    | none => throw .malformed
    | some beginning => return beginning ++ t.suffix

/-- The type that a tag names; none if there is no tag, or if it is the exclamation mark. -/
def typeOf (handles : List (String × String)) (t? : Option TagText) : Grammar (Option Tag) := do
  match t? with
  | none => return none
  | some t =>
    let name ← fullName handles t
    return if name = "!" then none else some (.ofName name)

/-- The type of a scalar without a tag. Only plain text can be something else than text. -/
def scalarTag (plain : Bool) (l : Letters) : Tag :=
  match l with
  | .text s => if plain then .ofImplicit (implicit s) else .text
  | .points _ => .text

/-- A scalar with or without a tag. -/
def scalar (anchor? : Option String) (plain : Bool) (tag? : Option Tag) (l : Letters) : Grammar NodeId :=
  add anchor? ⟨tag?.getD (scalarTag plain l), .scalar l⟩

/-- What stands where nothing is written. -/
def nothing : Grammar NodeId := scalar none true none (.text "")

/-! ### Nodes -/

/-- What stands where only a name or a tag is written. -/
def absent (name? : Option String) (tag? : Option Tag) (text? : Option TagText) : Grammar NodeId := do
  if name?.isNone && text?.isNone then throw .malformed
  scalar name? true tag? (.text "")

mutual

/-- A node. -/
def node (handles : List (String × String)) (around : Surroundings) : Nat → Grammar NodeId
  | 0 => throw .malformed
  | n + 1 => do
    if let .alias name := ← peek then
      skip
      return ← named name
    let (name?, text?) ← properties
    let tag? ← typeOf handles text?
    let list := collection name? (tag?.getD .list) .sequence
    let map := collection name? (tag?.getD .map) .mapping
    match ← peek with
    | .blockEntry =>
      if around = .entry then list (looseItems handles n)
      else absent name? tag? text?
    | .scalar plain letters => skip; scalar name? (plain || text?.isSome) tag? letters
    | .flowSequenceStart => skip; list (bracketItems handles true n)
    | .flowMappingStart => skip; map (bracketEntries handles true n)
    | .blockSequenceStart =>
      if around = .brackets then absent name? tag? text?
      else skip; list (blockItems handles n)
    | .blockMappingStart =>
      if around = .brackets then absent name? tag? text?
      else skip; map (blockEntries handles n)
    | _ => absent name? tag? text?

/-- A node, or nothing in front of one of the tokens given. -/
def nodeUnless (handles : List (String × String)) (around : Surroundings) (stops : List Token) :
    Nat → Grammar NodeId
  | 0 => throw .malformed
  | n + 1 => do
    if ← sees stops then return ← nothing
    node handles around n

/-- A value behind a colon, or nothing. -/
def valueUnless (handles : List (String × String)) (around : Surroundings) (stops : List Token) :
    Nat → Grammar NodeId
  | 0 => throw .malformed
  | n + 1 => do
    if ← accept .value then nodeUnless handles around stops n else nothing

/-- The items of an indented list and its end. -/
def blockItems (handles : List (String × String)) : Nat → Grammar (List NodeId)
  | 0 => throw .malformed
  | n + 1 => do
    if ← accept .blockEntry then
      let item ← nodeUnless handles .block [.blockEntry, .blockEnd] n
      return item :: (← blockItems handles n)
    expect .blockEnd
    return []

/-- The items of a list that is not indented. -/
def looseItems (handles : List (String × String)) : Nat → Grammar (List NodeId)
  | 0 => throw .malformed
  | n + 1 => do
    if ← accept .blockEntry then
      let item ← nodeUnless handles .block [.blockEntry, .key, .value, .blockEnd] n
      return item :: (← looseItems handles n)
    return []

/-- The entries of a block mapping and its end. -/
def blockEntries (handles : List (String × String)) : Nat → Grammar (List Entry)
  | 0 => throw .malformed
  | n + 1 => do
    if ← accept .key then
      let key ← nodeUnless handles .entry [.key, .value, .blockEnd] n
      let value ← valueUnless handles .entry [.key, .value, .blockEnd] n
      return (key, value) :: (← blockEntries handles n)
    expect .blockEnd
    return []

/-- The items of a list between brackets and the closing one; behind the first item each follows a
comma. An item may be a single entry of a mapping. -/
def bracketItems (handles : List (String × String)) (first : Bool) : Nat → Grammar (List NodeId)
  | 0 => throw .malformed
  | n + 1 => do
    if ← accept .flowSequenceEnd then return []
    if !first then
      expect .flowEntry
      if ← accept .flowSequenceEnd then return []
    if ← accept .key then
      let key ← nodeUnless handles .brackets [.value, .flowEntry, .flowSequenceEnd] n
      let value ← valueUnless handles .brackets [.flowEntry, .flowSequenceEnd] n
      let item ← add none ⟨.map, .mapping [(key, value)]⟩
      return item :: (← bracketItems handles false n)
    let item ← node handles .brackets n
    return item :: (← bracketItems handles false n)

/-- The entries of a mapping between braces and the closing one. A key may stand alone. -/
def bracketEntries (handles : List (String × String)) (first : Bool) :
    Nat → Grammar (List Entry)
  | 0 => throw .malformed
  | n + 1 => do
    if ← accept .flowMappingEnd then return []
    if !first then
      expect .flowEntry
      if ← accept .flowMappingEnd then return []
    if ← accept .key then
      let key ← nodeUnless handles .brackets [.value, .flowEntry, .flowMappingEnd] n
      let value ← valueUnless handles .brackets [.flowEntry, .flowMappingEnd] n
      return (key, value) :: (← bracketEntries handles false n)
    let key ← node handles .brackets n
    let value ← nothing
    return (key, value) :: (← bracketEntries handles false n)

end

/-! ### Documents -/

/-- The handles that need not be declared, with what they stand for. -/
def defaultHandles : List (String × String) := [("!", "!"), ("!!", Tag.namespaceText)]

/-- The directives in front of a document: the handles that they declare. Of the language only version 1
is read, and neither it nor a handle is declared twice. -/
def directives : Nat → (versioned : Bool) → List (String × String) → Grammar (List (String × String))
  | 0, _, _ => throw .malformed
  | n + 1, versioned, handles => do
    let .directive d ← peek | return handles
    skip
    match d with
    | .version major =>
      if versioned || major ≠ 1 then throw .malformed
      directives n true handles
    | .handle handle beginning =>
      if handles.any (·.1 == handle) then throw .malformed
      directives n versioned ((handle, beginning) :: handles)
    | .other => directives n versioned handles

/-- Whether the next token ends a document or starts another one. -/
def atDocumentEnd : Grammar Bool := do
  match ← peek with
  | .directive _ | .documentStart | .documentEnd | .streamEnd => return true
  | _ => return false

/-- The node of the first document, if there is a document. -/
def document (fuel : Nat) : Grammar (Option NodeId) := do
  match ← peek with
  | .streamEnd => return none
  | .directive _ | .documentStart =>
    let handles ← directives fuel false []
    expect .documentStart
    if ← atDocumentEnd then return some (← nothing)
    node (handles ++ defaultHandles) .block fuel
  | _ => node defaultHandles .block fuel

/-- Marks of the end of a document. -/
def skipEnds : Nat → Grammar Unit
  | 0 => return
  | n + 1 => do if ← accept .documentEnd then skipEnds n

/-- The node of the only document, if there is one. -/
def stream (fuel : Nat) : Grammar (Option NodeId) := do
  let root? ← document fuel
  skipEnds fuel
  expect .streamEnd
  return root?

end Grammar

/-- The value of a document. -/
def Stretch.value (s : Stretch) : Except Fault Value := do
  let tokens := tokens s
  let (root?, s) ← (Grammar.stream (2 * tokens.length + 4)).run ⟨tokens, .empty, []⟩
  match root? with
  | none => return .null
  | some root => s.nodes.value root

/-- The value of a text. -/
def read (text : String) : Except Fault Value := do (← Stretch.ofText text.toList).value

/-- The value of a file that is read in portions. -/
def readPortions (p : Text.Portions) : Except Fault Value := do (← Stretch.ofPortions p).value

end DesignGraph.Yaml
