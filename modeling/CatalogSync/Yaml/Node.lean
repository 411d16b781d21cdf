import CatalogSync.Room
import CatalogSync.Yaml.Tag
import CatalogSync.Yaml.Token

/-!
The nodes of a YAML text: scalars, sequences and mappings, each with its tag. Nodes are numbered,
and a collection names its parts by their numbers; an alias is the number of the node that its
anchor names, which may be a node around it. `Document.ofTokens` reads the one document that the
tokens of a text make up.

The productions are those that the loader documents for YAML 1.1: an empty node is a null scalar, an
alias needs an anchor before it, an anchor may be given once in a document, and a text that is loaded
holds one document at most.
-/

namespace CatalogSync.Yaml

/-- The number of a node in its document. -/
abbrev NodeId := Nat

/-- What a node is made of. -/
inductive Content where
  | scalar (text : LooseText)
  | sequence (items : List NodeId)
  | mapping (entries : List (NodeId × NodeId))
deriving DecidableEq, Repr

structure Node where
  tag : Tag
  content : Content
deriving DecidableEq, Repr

/-- A document: its nodes by their numbers, and the node that is all of it. -/
structure Document where
  nodes : Array Node
  root : NodeId
deriving Repr

/-- What stands in front of a node: an anchor and a tag, given by its address; an exclamation mark
alone counts as a tag that says nothing. -/
structure Properties where
  anchor : Option (List Char) := none
  tag : Option (List Char) := none
deriving DecidableEq, Repr

/-- The state while a document is read: tokens to come, the number of open collections, handles of
tags, the nodes so far, and the numbers of those with anchors. -/
structure Reader where
  stream : TokenStream
  depth : Nat := 0
  handles : List (List Char × List Char) := []
  anchors : List (List Char × NodeId) := []
  nodes : Array Node := #[]

/-- A step of reading, which may fail. -/
abbrev Reading := StateT Reader (Except Refusal)

namespace Reading

variable {α : Type}

/-- The text is no document. -/
def fail : Reading α := throw .malformed

/-- The next token; a fault of the text comes up where the tokens before it have been used. -/
def peek? : Reading (Option Token) := do
  match (← get).stream with
  | ⟨[], some refusal⟩ => throw refusal
  | ⟨tokens, _⟩ => return tokens.head?

/-- Passes over a token. -/
def drop : Reading Unit :=
  modify fun r => { r with stream := { r.stream with tokens := r.stream.tokens.tail } }

/-- Passes over a given token, where it comes next. -/
def accept (t : Token) : Reading Bool := do
  if (← peek?) = some t then
    drop
    return true
  else return false

/-- Passes over a token that must come next. -/
def expect (t : Token) : Reading Unit := do
  if ← accept t then return else fail

/-- Whether one of the given tokens comes next. -/
def nextIn (ts : List Token) : Reading Bool := do
  match ← peek? with
  | some t => return ts.contains t
  | none => return false

/-- Whether a node has the anchor already. -/
def isTaken (name : Option (List Char)) : Reading Bool := do
  match name with
  | some name => return (← get).anchors.any (·.1 = name)
  | none => return false

/-- Adds a node, with its anchor where there is one, and gives its number. -/
def add (p : Properties) (n : Node) : Reading NodeId := do
  let id := (← get).nodes.size
  modify fun r => { r with
    nodes := r.nodes.push n
    anchors := (p.anchor.map (·, id)).toList ++ r.anchors }
  return id

/-- The address of a tag by its handle. -/
def address (handle : Option (List Char)) (suffix : List Char) : Reading (List Char) := do
  match handle with
  | none => return suffix
  | some h =>
    match (← get).handles.find? (·.1 = h) with
    | some (_, lead) => return lead ++ suffix
    | none => fail

/-- An anchor and a tag in either order. -/
def properties : Reading Properties := do
  match ← peek? with
  | some (.anchor name) =>
    drop
    match ← peek? with
    | some (.tag h s) =>
      drop
      return ⟨some name, some (← address h s)⟩
    | _ => return ⟨some name, none⟩
  | some (.tag h s) =>
    drop
    match ← peek? with
    | some (.anchor name) =>
      drop
      return ⟨some name, some (← address h s)⟩
    | _ => return ⟨none, some (← address h s)⟩
  | _ => return {}

/-- The tag of a scalar: the one that is given, or else the one of its form where it is plain. -/
def scalarTag (p : Properties) (text : LooseText) (isPlain : Bool) : Tag :=
  match p.tag with
  | none => if isPlain then Plain.tag text.chars else .text
  | some ['!'] => Plain.tag text.chars
  | some s => .ofAddress s

/-- The tag of a collection. -/
def collectionTag (p : Properties) (standard : Tag) : Tag :=
  match p.tag with
  | none => standard
  | some ['!'] => standard
  | some s => .ofAddress s

/-- A node that is left out. -/
def missing : Reading NodeId := add {} ⟨.null, .scalar ""⟩

/-- The tokens before which a node of a block mapping is left out. -/
def endsBlockPart : List Token := [.key, .value, .blockEnd]

variable [Room]

/-- Adds a collection before its parts are read, so that they can name it. -/
def collection (p : Properties) (tag : Tag) (make : List α → Content)
    (read : Reading (List α)) : Reading NodeId := do
  let depth := (← get).depth
  if depth = Room.yaml then throw .tooDeep
  let id ← add p ⟨tag, make []⟩
  modify fun r => { r with depth := depth + 1 }
  let parts ← read
  modify fun r => { r with
    depth := depth
    nodes := r.nodes.setIfInBounds id ⟨tag, make parts⟩ }
  return id

mutual

/-- A node; `inBlock` allows block collections, and `inMapping` a sequence that is indented no
further than the mapping it stands in. No step goes deeper than the bound. -/
def node : Nat → Bool → Bool → Reading NodeId
  | 0, _, _ => fail
  | bound + 1, inBlock, inMapping => do
    if let some (.alias name) ← peek? then
      drop
      match (← get).anchors.find? (·.1 = name) with
      | some (_, id) => return id
      | none => fail
    else
      let p ← properties
      let sequence := collection p (collectionTag p .sequence) .sequence
      let mapping := collection p (collectionTag p .mapping) .mapping
      let next ← peek?
      if ← isTaken p.anchor then fail
      match next with
      | some (.scalar text isPlain) =>
        drop
        add p ⟨scalarTag p text isPlain, .scalar text⟩
      | some .flowSequenceStart =>
        drop
        sequence (flowItems bound true)
      | some .flowMappingStart =>
        drop
        mapping (flowEntries bound true)
      | t =>
        if inMapping ∧ t = some .blockEntry then sequence (looseItems bound)
        else if inBlock ∧ t = some .blockSequenceStart then
          drop
          sequence (blockItems bound)
        else if inBlock ∧ t = some .blockMappingStart then
          drop
          mapping (blockEntries bound)
        else if p = {} then fail
        else add p ⟨scalarTag p "" (p.tag = none), .scalar ""⟩

/-- The items of a block sequence. -/
def blockItems : Nat → Reading (List NodeId)
  | 0 => fail
  | bound + 1 => do
    if ← accept .blockEntry then
      let first ←
        if ← nextIn [.blockEntry, .blockEnd] then missing else node bound true false
      return first :: (← blockItems bound)
    else
      expect .blockEnd
      return []

/-- The items of a sequence that is indented no further than the mapping it stands in. -/
def looseItems : Nat → Reading (List NodeId)
  | 0 => fail
  | bound + 1 => do
    if ← accept .blockEntry then
      let first ←
        if ← nextIn (.blockEntry :: endsBlockPart) then missing else node bound true false
      return first :: (← looseItems bound)
    else return []

/-- A part of a block mapping, unless it is left out. -/
def blockPart : Nat → Reading NodeId
  | 0 => fail
  | bound + 1 => do
    if ← nextIn endsBlockPart then missing else node bound true true

/-- The entries of a block mapping. -/
def blockEntries : Nat → Reading (List (NodeId × NodeId))
  | 0 => fail
  | bound + 1 => do
    if ← accept .key then
      let k ← blockPart bound
      let v ← if ← accept .value then blockPart bound else missing
      return (k, v) :: (← blockEntries bound)
    else
      expect .blockEnd
      return []

/-- A part of an entry between brackets, unless one of the given tokens ends it. -/
def flowPart : Nat → List Token → Reading NodeId
  | 0, _ => fail
  | bound + 1, stops => do
    if ← nextIn stops then missing else node bound false false

/-- The items between square brackets; an item with a colon is a mapping of one entry. -/
def flowItems : Nat → Bool → Reading (List NodeId)
  | 0, _ => fail
  | bound + 1, isFirst => do
    if ← accept .flowSequenceEnd then return []
    else
      if !isFirst then expect .flowEntry
      if ← accept .key then
        let entry ← collection {} .mapping .mapping do
          let k ← flowPart bound [.value, .flowEntry, .flowSequenceEnd]
          let v ←
            if ← accept .value then flowPart bound [.flowEntry, .flowSequenceEnd] else missing
          return [(k, v)]
        return entry :: (← flowItems bound false)
      else if ← accept .flowSequenceEnd then return []
      else
        let first ← node bound false false
        return first :: (← flowItems bound false)

/-- The entries between braces; a part without a colon is a key. -/
def flowEntries : Nat → Bool → Reading (List (NodeId × NodeId))
  | 0, _ => fail
  | bound + 1, isFirst => do
    if ← accept .flowMappingEnd then return []
    else
      if !isFirst then expect .flowEntry
      if ← accept .key then
        let k ← flowPart bound [.value, .flowEntry, .flowMappingEnd]
        let v ←
          if ← accept .value then flowPart bound [.flowEntry, .flowMappingEnd] else missing
        return (k, v) :: (← flowEntries bound false)
      else if ← accept .flowMappingEnd then return []
      else
        let k ← node bound false false
        return (k, ← missing) :: (← flowEntries bound false)

end

/-- The handles of tags that are known everywhere. -/
def knownHandles : List (List Char × List Char) :=
  [(['!'], ['!']), (['!', '!'], Tag.standard)]

/-- The directives in front of a document: one version at most, of the first kind, and no handle
twice. -/
def directives : Nat → Bool → List (List Char × List Char) → Reading Unit
  | 0, _, _ => fail
  | bound + 1, hasVersion, handles => do
    match ← peek? with
    | some (.versionDirective major) =>
      drop
      if hasVersion ∨ major ≠ 1 then fail else directives bound true handles
    | some (.tagDirective h lead) =>
      drop
      if handles.any (·.1 = h) then fail
      else directives bound hasVersion ((h, lead) :: handles)
    | some .otherDirective =>
      drop
      directives bound hasVersion handles
    | _ => modify fun r => { r with handles := handles ++ knownHandles }

/-- Passes over marks that end a document. -/
def documentEnds : Nat → Reading Unit
  | 0 => fail
  | bound + 1 => do if ← accept .documentEnd then documentEnds bound

/-- The token belongs in front of a document. -/
def isHead : Token → Bool
  | .documentStart => true
  | .versionDirective _ => true
  | .tagDirective _ _ => true
  | .otherDirective => true
  | _ => false

/-- The mark of a document, after the directives in front of it. -/
def documentHead (bound : Nat) : Reading Unit := do
  directives bound false []
  expect .documentStart

/-- The content of a document that was marked as such. -/
def content (bound : Nat) : Reading NodeId := do
  match ← peek? with
  | none => missing
  | some t => if isHead t ∨ t = .documentEnd then missing else node bound true false

/-- The node of the first document, where there is one. -/
def first (bound : Nat) : Reading (Option NodeId) := do
  match ← peek? with
  | none => return none
  | some t =>
    if isHead t then
      documentHead bound
      return some (← content bound)
    else
      modify fun r => { r with handles := knownHandles }
      return some (← node bound true false)

/-- The node of the one document, where there is one. -/
def document (bound : Nat) : Reading (Option NodeId) := do
  let root ← first bound
  documentEnds bound
  if (← peek?).isSome then
    documentHead bound
    fail
  else return root

end Reading

/-- The one document that tokens make up, where there is one. -/
def Document.ofTokens [Room] (stream : TokenStream) : Except Refusal (Option Document) := do
  let (root, reader) ← (Reading.document (4 * stream.tokens.length + 8)).run { stream := stream }
  return root.map fun id => ⟨reader.nodes, id⟩

end CatalogSync.Yaml
