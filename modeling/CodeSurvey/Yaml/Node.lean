/-
# Nodes of YAML

The tokens of a document compose a graph of nodes: scalars, sequences and mappings, each with a
tag. An anchor names a node and an alias mentions it again, even inside itself, which is why
children are given by number. A node without a tag gets one by its kind, and a plain scalar one by
its form (`Tag.ofPlain`).

`Graph.ofTokens?` takes the tokens of a text that holds one document. Collections nest, so its
functions take an allowance of steps; each step takes a token or goes one level down.
-/

import CodeSurvey.Yaml.Lexer
import CodeSurvey.Yaml.Tag

namespace CodeSurvey
namespace Yaml

/-- What a node holds; children are given by number. -/
inductive Content
  | scalar (text : String)
  | sequence (items : List Nat)
  | mapping (pairs : List (Nat × Nat))
  deriving DecidableEq, Repr

/-- A node. -/
structure Node where
  tag : String
  content : Content
  deriving DecidableEq, Repr

/-- The nodes of a document by number. -/
abbrev Nodes := Array Node

/-- The composition of a graph: the tokens left, the nodes so far, and what names stand for. -/
structure Composer where
  tokens : List Token
  nodes : Nodes := #[]
  anchors : List (String × Nat) := []
  handles : List (String × String) := Tag.handles

/-- A step of the composition. -/
abbrev Compose := StateT Composer (Except Fault)

namespace Compose

/-- The next token. -/
def peek : Compose (Option Token) := return (← get).tokens.head?

/-- Passes over the next token. -/
def skip : Compose Unit := modify fun c => { c with tokens := c.tokens.tail }

/-- Whether the next token is one of some. -/
def atAny (ts : List Token) : Compose Bool := return (← peek).any ts.contains

/-- Passes over the next token if it is the given one. -/
def accept (t : Token) : Compose Bool := do
  if (← peek) == some t then
    skip
    return true
  else return false

/-- Passes over the next token, which must be the given one. -/
def expect (t : Token) : Compose Unit := do
  if !(← accept t) then throw .malformed

/-- Adds a node, known by its anchor if it has one; an anchor is given once. -/
def add (anchor : Option String) (n : Node) : Compose Nat := do
  let c ← get
  let id := c.nodes.size
  match anchor with
  | none => set { c with nodes := c.nodes.push n }
  | some a =>
    if (c.anchors.lookup a).isSome then throw .malformed
    set { c with nodes := c.nodes.push n, anchors := (a, id) :: c.anchors }
  return id

/-- Gives a node its content. -/
def fill (id : Nat) (content : Content) : Compose Unit :=
  modify fun c => { c with nodes := c.nodes.modify id fun n => { n with content } }

/-- An empty plain scalar. -/
def empty : Compose Nat := add none ⟨Tag.ofPlain "", .scalar ""⟩

/-- The anchor and the tag before a node, in either order, each at most once. -/
def properties : Compose (Option String × Option (Option String × String)) := do
  match ← peek with
  | some (.anchor a) =>
    skip
    match ← peek with
    | some (.tag h s) =>
      skip
      return (some a, some (h, s))
    | _ => return (some a, none)
  | some (.tag h s) =>
    skip
    match ← peek with
    | some (.anchor a) =>
      skip
      return (some a, some (h, s))
    | _ => return (none, some (h, s))
  | _ => return (none, none)

/-- The tag that a handle and a suffix stand for. -/
def resolve : Option (Option String × String) → Compose (Option String)
  | none => return none
  | some (none, suffix) => return some suffix
  | some (some handle, suffix) => do
    match (← get).handles.lookup handle with
    | some start => return some (start ++ suffix)
    | none => throw .malformed

/-- The tag of a scalar. -/
def scalarTag (tag : Option String) (isPlain : Bool) (text : String) : String :=
  match tag with
  | some "!" => Tag.ofPlain text
  | some t => t
  | none => if isPlain then Tag.ofPlain text else Tag.string

/-- The tag of a collection. -/
def collectionTag (tag : Option String) (standard : String) : String :=
  match tag with
  | some "!" => standard
  | some t => t
  | none => standard

mutual

/-- A node. Collections shown by indentation may start only in a block; a sequence without
indentation of its own only as a key or value. -/
def node (inBlock unindented : Bool) : (allowed : Nat) → Compose Nat
  | 0 => throw .malformed
  | allowed + 1 => do
    match ← peek with
    | some (.alias name) =>
      skip
      match (← get).anchors.lookup name with
      | some id => return id
      | none => throw .malformed
    | _ => do
      let (anchor, mark) ← properties
      let tag ← resolve mark
      let sequence := Node.mk (collectionTag tag Tag.sequence) (.sequence [])
      let mapping := Node.mk (collectionTag tag Tag.mapping) (.mapping [])
      match ← peek with
      | some .blockEntry =>
        if unindented then do
          let id ← add anchor sequence
          fill id (.sequence (← entries false allowed))
          return id
        else absent anchor tag
      | some (.scalar text isPlain) =>
        skip
        add anchor ⟨scalarTag tag isPlain text, .scalar text⟩
      | some .flowSequenceStart => do
        skip
        let id ← add anchor sequence
        fill id (.sequence (← flowItems true allowed))
        return id
      | some .flowMappingStart => do
        skip
        let id ← add anchor mapping
        fill id (.mapping (← flowPairs true allowed))
        return id
      | some .blockSequenceStart =>
        if inBlock then do
          skip
          let id ← add anchor sequence
          fill id (.sequence (← entries true allowed))
          return id
        else absent anchor tag
      | some .blockMappingStart =>
        if inBlock then do
          skip
          let id ← add anchor mapping
          fill id (.mapping (← blockPairs allowed))
          return id
        else absent anchor tag
      | _ => absent anchor tag

/-- A node of which only an anchor or a tag is written. -/
def absent (anchor tag : Option String) : Compose Nat :=
  if anchor.isNone && tag.isNone then throw .malformed
  else add anchor ⟨scalarTag tag (tag.isNone || tag == some "!") "", .scalar ""⟩

/-- A node, or an empty one before any of some tokens or the end. -/
def nodeUnless (ends : List Token) (inBlock unindented : Bool) : (allowed : Nat) → Compose Nat
  | 0 => throw .malformed
  | allowed + 1 => do
    if ← atAny ends then empty else node inBlock unindented allowed

/-- The entries of a sequence that are left; one with an indentation of its own is closed. -/
def entries (closed : Bool) : (allowed : Nat) → Compose (List Nat)
  | 0 => throw .malformed
  | allowed + 1 => do
    if ← accept .blockEntry then
      let ends :=
        if closed then [.blockEntry, .blockEnd] else [.blockEntry, .key, .value, .blockEnd]
      let id ← nodeUnless ends true false allowed
      return id :: (← entries closed allowed)
    else do
      if closed then expect .blockEnd
      return []

/-- The pairs of a block mapping that are left. -/
def blockPairs : (allowed : Nat) → Compose (List (Nat × Nat))
  | 0 => throw .malformed
  | allowed + 1 => do
    if ← accept .blockEnd then return []
    else do
      let ends := [Token.key, .value, .blockEnd]
      expectKey
      let k ← nodeUnless ends true true allowed
      let v ← if ← accept .value then nodeUnless ends true true allowed else empty
      return (k, v) :: (← blockPairs allowed)

/-- A key must begin here. -/
def expectKey : Compose Unit := expect .key

/-- The items of a sequence in brackets that are left. -/
def flowItems (first : Bool) : (allowed : Nat) → Compose (List Nat)
  | 0 => throw .malformed
  | allowed + 1 => do
    if ← accept .flowSequenceEnd then return []
    else do
      if !first then expect .flowEntry
      if ← accept .key then
        let id ← add none ⟨Tag.mapping, .mapping []⟩
        let k ← nodeUnless [.value, .flowEntry, .flowSequenceEnd] false false allowed
        let v ←
          if ← accept .value then nodeUnless [.flowEntry, .flowSequenceEnd] false false allowed
          else empty
        fill id (.mapping [(k, v)])
        return id :: (← flowItems false allowed)
      else if ← accept .flowSequenceEnd then return []
      else
        let id ← node false false allowed
        return id :: (← flowItems false allowed)

/-- The pairs of a mapping in braces that are left. -/
def flowPairs (first : Bool) : (allowed : Nat) → Compose (List (Nat × Nat))
  | 0 => throw .malformed
  | allowed + 1 => do
    if ← accept .flowMappingEnd then return []
    else do
      if !first then expect .flowEntry
      if ← accept .key then
        let k ← nodeUnless [.value, .flowEntry, .flowMappingEnd] false false allowed
        let v ←
          if ← accept .value then nodeUnless [.flowEntry, .flowMappingEnd] false false allowed
          else empty
        return (k, v) :: (← flowPairs false allowed)
      else if ← accept .flowMappingEnd then return []
      else
        let k ← node false false allowed
        let v ← empty
        return (k, v) :: (← flowPairs false allowed)

end

/-- The directives before a document: at most one version, of the first edition,
and each handle once. -/
def directives : (allowed : Nat) → (version : Bool) → (handles : List (String × String)) →
    Compose (List (String × String))
  | 0, _, _ => throw .malformed
  | allowed + 1, version, handles => do
    match ← peek with
    | some (.directive (.version major)) =>
      skip
      if version || major != 1 then throw .malformed else directives allowed true handles
    | some (.directive (.tagHandle handle start)) =>
      skip
      if (handles.lookup handle).isSome then throw .malformed
      else directives allowed version (handles ++ [(handle, start)])
    | some (.directive .reserved) =>
      skip
      directives allowed version handles
    | _ => return handles ++ Tag.handles

/-- Passes over the marks that end a document. -/
def skipEnds : (allowed : Nat) → Compose Unit
  | 0 => throw .malformed
  | allowed + 1 => do
    if ← accept .documentEnd then skipEnds allowed

/-- The one document of a text, if the text has any. -/
def document (allowed : Nat) : Compose (Option Nat) := do
  match ← peek with
  | none => return none
  | some t => do
    let explicit := match t with
      | .directive _ => true
      | .documentStart => true
      | _ => false
    if explicit then
      let handles ← directives allowed false []
      modify fun c => { c with handles }
      expect .documentStart
    let isEmpty := explicit && match ← peek with
      | none => true
      | some (.directive _) => true
      | some .documentStart => true
      | some .documentEnd => true
      | _ => false
    let root ← if isEmpty then empty else node true false allowed
    skipEnds allowed
    if (← peek).isSome then throw .malformed
    return some root

end Compose

/-- The graph of the one document that some tokens make: its nodes and its root, if it has one. -/
def compose (ts : List Token) : Except Fault (Nodes × Option Nat) := do
  let allowed := 4 * ts.length + 8
  let (root, c) ← (Compose.document allowed).run { tokens := ts }
  return (c.nodes, root)

end Yaml
end CodeSurvey
