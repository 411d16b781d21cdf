import CatalogSync.Yaml.Node
import CatalogSync.Yaml.Value

/-!
What a document denotes. Its nodes are gone through in the order of a queue: a collection that is
met counts as a value at once, while its parts wait until the collections met before it are done.
So of several faults the one that lies less deep comes up first. A mapping takes in the entries of
the mappings that its merge keys name; they stand in front, and its own entries take precedence.
`TopLevel.ofText` reads a text; of all collections only the outermost shows its parts.

The order is that in which the loader constructs, collections before their parts, so that they can
hold one another; merge keys are those of YAML 1.1.
-/

namespace CatalogSync.Yaml

/-- The outermost value of a text: a mapping with its entries, or another value. -/
inductive TopLevel where
  | mapping (entries : List (Value × Value))
  | other (value : Value)
deriving DecidableEq, Repr

/-- The state while a document is gone through: its nodes, the values of those that have one, and
the collections whose parts wait. -/
structure Assembly where
  nodes : Array Node
  values : Array (Option Value)
  waiting : List NodeId := []

/-- A step through a document, which may find a fault. -/
abbrev Assembling := StateT Assembly (Except Refusal)

/-- The kind of collection that a tag stands for. -/
def Tag.collection? : Tag → Option Value
  | .sequence => some .sequence
  | .orderedPairs => some .sequence
  | .pairs => some .sequence
  | .set => some .set
  | .mapping => some .mapping
  | _ => none

namespace Node

def isMapping (n : Node) : Bool :=
  match n.content with
  | .mapping _ => true
  | _ => false

end Node

namespace Assembling

/-- The node of a number. -/
def node (id : NodeId) : Assembling Node := do
  match (← get).nodes[id]? with
  | some n => return n
  | none => throw .malformed

/-- The tag of a node. -/
def tag (id : NodeId) : Assembling Tag := return (← node id).tag

/-- The entries of a node that is a mapping. -/
def entries (id : NodeId) : Assembling (List (NodeId × NodeId)) := do
  match (← node id).content with
  | .mapping entries => return entries
  | _ => throw .malformed

/-- The items of a node that is a sequence. -/
def items (id : NodeId) : Assembling (List NodeId) := do
  match (← node id).content with
  | .sequence items => return items
  | _ => throw .malformed

/-- Puts a node in the place of another. -/
def replace (id : NodeId) (n : Node) : Assembling Unit :=
  modify fun a => { a with nodes := a.nodes.setIfInBounds id n }

/-- Gives a mapping other entries. -/
def setEntries (id : NodeId) (entries : List (NodeId × NodeId)) : Assembling Unit := do
  replace id { (← node id) with content := .mapping entries }

/-- Splits a list at the first element that passes a test. -/
def splitAtFirst {α : Type} (p : α → Assembling Bool) :
    List α → Assembling (Option (List α × α × List α))
  | [] => return none
  | a :: rest => do
    if ← p a then return some ([], a, rest)
    else return (← splitAtFirst p rest).map fun (before, b, after) => (a :: before, b, after)

/-- The entry has a key with a given tag. -/
def hasKey (wanted : Tag) (e : NodeId × NodeId) : Assembling Bool := return (← tag e.1) = wanted

/-- The text of a node as a scalar. A mapping stands for the value of its first key with the tag for
values. -/
def scalarText : Nat → NodeId → Assembling LooseText
  | 0, _ => throw .malformed
  | bound + 1, id => do
    match (← node id).content with
    | .scalar text => return text
    | .sequence _ => throw .malformed
    | .mapping entries =>
      match ← splitAtFirst (hasKey .value) entries with
      | some (_, e, _) => scalarText bound e.2
      | none => throw .malformed

/-- A key with the tag for values counts as a text. -/
def plainKey (id : NodeId) : Assembling Unit := do
  let n ← node id
  if n.tag = .value then replace id { n with tag := .text }

mutual

/-- Puts the entries of merged mappings in the place of merge keys, in front of the others. No step
goes deeper than the bound, for which the number of merge keys is enough. -/
def flatten : Nat → NodeId → Assembling Unit
  | 0, _ => throw .malformed
  | bound + 1, id => do
    match ← splitAtFirst (hasKey .merge) (← entries id) with
    | some (before, e, after) =>
      setEntries id (before ++ after)
      let merged ← mergedEntries bound e.2
      flatten bound id
      setEntries id (merged ++ (← entries id))
    | none =>
      for e in ← entries id do plainKey e.1

/-- The entries of a mapping, or of the mappings of a sequence from its end. -/
def mergedEntries : Nat → NodeId → Assembling (List (NodeId × NodeId))
  | 0, _ => throw .malformed
  | bound + 1, source => do
    match (← node source).content with
    | .mapping _ =>
      flatten bound source
      entries source
    | .sequence items =>
      let parts ← items.mapM fun item => do
        if !(← node item).isMapping then throw .malformed
        flatten bound item
        entries item
      return parts.reverse.flatten
    | .scalar _ => throw .malformed

end

/-- The number of entries of all mappings. -/
def entryCount (nodes : Array Node) : Nat :=
  nodes.foldl (fun n node =>
    match node.content with
    | .mapping entries => n + entries.length
    | _ => n) 0

/-- The value of a node that is no collection. -/
def scalar (id : NodeId) (n : Node) : Assembling Value := do
  let text ← scalarText ((← get).nodes.size + 1) id
  if n.tag = .timestamp ∧ n.isMapping then throw .noTextForTime
  else Value.ofScalar id n.tag text

/-- The value of a node. A collection waits for its parts to be gone through. -/
def value (id : NodeId) : Assembling Value := do
  match ((← get).values[id]?).join with
  | some v => return v
  | none =>
    let n ← node id
    let v ← match n.tag.collection? with
      | some v => do
        modify fun a => { a with waiting := a.waiting ++ [id] }
        pure v
      | none => scalar id n
    modify fun a => { a with values := a.values.setIfInBounds id (some v) }
    return v

/-- The values of entries; a key must be one that a mapping can have. -/
def entryValues (known : List (Value × Value)) :
    List (NodeId × NodeId) → Assembling (List (Value × Value))
  | [] => return known
  | e :: rest => do
    let k ← value e.1
    if !k.isKey then throw .malformed
    entryValues (Value.put known k (← value e.2)) rest

/-- Goes through the parts of a mapping and gives its entries. -/
def mappingParts (id : NodeId) : Assembling (List (Value × Value)) := do
  let _ ← entries id
  flatten (2 * entryCount (← get).nodes + 2) id
  entryValues [] (← entries id)

/-- Goes through the one entry of a mapping in a list of pairs. -/
def pairParts (id : NodeId) : Assembling Unit := do
  match ← entries id with
  | [e] => do
    let _ ← value e.1
    let _ ← value e.2
  | _ => throw .malformed

/-- Goes through the parts of a collection; a mapping has entries. -/
def parts (id : NodeId) : Assembling (List (Value × Value)) := do
  match ← tag id with
  | .mapping => mappingParts id
  | .set =>
    let _ ← mappingParts id
    return []
  | .sequence =>
    for item in ← items id do let _ ← value item
    return []
  | _ =>
    for item in ← items id do pairParts item
    return []

/-- Goes through the parts of the collections that wait, and of those that come up meanwhile. The
number of nodes is bound enough. -/
def settle : Nat → Assembling Unit
  | 0 => throw .malformed
  | bound + 1 => do
    match (← get).waiting with
    | [] => return
    | id :: rest =>
      modify fun a => { a with waiting := rest }
      let _ ← parts id
      settle bound

/-- The outermost value. -/
def topLevel (root : NodeId) : Assembling TopLevel := do
  let v ← value root
  modify fun a => { a with waiting := [] }
  let known ← if (← tag root).collection?.isSome then parts root else pure []
  settle ((← get).nodes.size + 1)
  return if v = .mapping then .mapping known else .other v

end Assembling

/-- What a document denotes. -/
def Document.topLevel (d : Document) : Except Refusal TopLevel :=
  (Assembling.topLevel d.root).run' ⟨d.nodes, d.nodes.map fun _ => none, []⟩

/-- What the one document of a text denotes; a text without a document denotes null. -/
def TopLevel.ofText [Room] (text : List Char) : Except Refusal TopLevel := do
  match ← Document.ofTokens (.ofText text) with
  | some d => d.topLevel
  | none => return .other .null

end CatalogSync.Yaml
