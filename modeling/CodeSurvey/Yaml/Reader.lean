/-
# Reading YAML

The values of a text: of each node that can be reached from the root. Nodes are read level by level,
and in each collection in order, so that of several faults the one nearest to the root is met first.

A mapping may take in the pairs of others with the key `<<`; its own pairs come later and so
count more. A key must not be a collection. A node that is mentioned several times, even
inside itself, has one value.
-/

import CodeSurvey.Yaml
import CodeSurvey.Yaml.Node
import CodeSurvey.Yaml.Scalar

namespace CodeSurvey
namespace Yaml

/-- Whether a value may be a key. -/
def Value.isKey : Value → Bool
  | .sequence _ => false
  | .ordered _ => false
  | .set _ => false
  | .mapping _ => false
  | _ => true

/-- A document that is being read: its nodes, their values as far as they have
been read, and its root. -/
structure Draft where
  nodes : Nodes
  values : Array (Option Value)
  root : Nat

namespace Draft

/-- The value of a node; null where there is none. -/
def value (d : Draft) (id : Nat) : Value := ((d.values[id]?).getD none).getD .null

/-- The tag of a node. -/
def tag (d : Draft) (id : Nat) : String := ((d.nodes[id]?).map (·.tag)).getD ""

/-- The content of a node. -/
def content (d : Draft) (id : Nat) : Content := ((d.nodes[id]?).map (·.content)).getD (.scalar "")

/-- The pairs of a mapping. -/
def pairs (d : Draft) (id : Nat) : List (Nat × Nat) :=
  match d.content id with
  | .mapping ps => ps
  | _ => []

/-- Whether a node is a mapping. -/
def isMapping (d : Draft) (id : Nat) : Bool :=
  match d.content id with
  | .mapping _ => true
  | _ => false

/-- The document with other pairs in a mapping. -/
def setPairs (d : Draft) (id : Nat) (ps : List (Nat × Nat)) : Draft :=
  { d with nodes := d.nodes.modify id fun n => { n with content := .mapping ps } }

/-- The document with a value for a node. -/
def setValue (d : Draft) (id : Nat) (v : Value) : Draft :=
  { d with values := d.values.modify id fun _ => some v }

mutual

/-- Takes the merged pairs into a mapping, from a pair on, after those taken already. -/
def merge : (allowed : Nat) → (id place : Nat) → (taken : List (Nat × Nat)) → Draft →
    Except Fault Draft
  | 0, _, _, _, _ => .error .malformed
  | allowed + 1, id, place, taken, d =>
    match (d.pairs id)[place]? with
    | none => .ok (if taken.isEmpty then d else d.setPairs id (taken ++ d.pairs id))
    | some (k, v) =>
      if d.tag k == Tag.merge then do
        let d := d.setPairs id ((d.pairs id).eraseIdx place)
        match d.content v with
        | .mapping _ => do
          let d ← merge allowed v 0 [] d
          merge allowed id place (taken ++ d.pairs v) d
        | .sequence items => do
          let (d, lists) ← mergeAll allowed items d
          merge allowed id place (taken ++ lists.reverse.flatten) d
        | .scalar _ => throw .malformed
      else if d.tag k == Tag.value then
        merge allowed id (place + 1) taken
          { d with nodes := d.nodes.modify k fun n => { n with tag := Tag.string } }
      else merge allowed id (place + 1) taken d

/-- Takes the merged pairs into some mappings and gives the pairs of each. -/
def mergeAll : (allowed : Nat) → List Nat → Draft → Except Fault (Draft × List (List (Nat × Nat)))
  | 0, _, _ => .error .malformed
  | _ + 1, [], d => .ok (d, [])
  | allowed + 1, id :: rest, d => do
    if !d.isMapping id then throw .malformed
    let d ← merge allowed id 0 [] d
    let own := d.pairs id
    let (d, more) ← mergeAll allowed rest d
    return (d, own :: more)

end

/-- An allowance of steps for taking in merged pairs. -/
def mergeAllowance (d : Draft) : Nat :=
  1000 * (d.nodes.size + 1)

/-- The mapping of a node with merged pairs taken in. -/
def merged (d : Draft) (id : Nat) : Except Fault Draft :=
  if d.isMapping id then merge d.mergeAllowance id 0 [] d else .error .malformed

/-- The text of a scalar. A mapping stands for the value of its key `=`, if it has one. -/
def scalarText (d : Draft) : (allowed : Nat) → Nat → Except Fault String
  | 0, _ => .error .malformed
  | allowed + 1, id =>
    match d.content id with
    | .scalar s => .ok s
    | .sequence _ => .error .malformed
    | .mapping ps =>
      match ps.find? fun p => d.tag p.1 == Tag.value with
      | some (_, v) => scalarText d allowed v
      | none => .error .malformed

/-- The value of a node; that of a collection holds no children yet. -/
def shallowValue (d : Draft) (id : Nat) : Except Fault Value := do
  let tag := d.tag id
  let scalar {α : Type} (read : String → Except ScalarFault α) : Except Fault α := do
    (read (← d.scalarText (d.nodes.size + 1) id)).mapError .scalar
  if tag == Tag.sequence then return .sequence []
  else if tag == Tag.mapping then return .mapping []
  else if tag == Tag.set then return .set []
  else if tag == Tag.orderedMapping || tag == Tag.pairs then return .ordered []
  else if tag == Tag.string then return .text (← scalar .ok)
  else if tag == Tag.null then
    let _ ← scalar .ok
    return .null
  else if tag == Tag.boolean then return .boolean (← scalar Scalar.boolean)
  else if tag == Tag.integer then return .integer (← scalar Scalar.integer)
  else if tag == Tag.real then return .real (← scalar Scalar.real)
  else if tag == Tag.moment then
    let _ ← scalar .ok
    match d.content id with
    | .scalar s => (Scalar.checkMoment s).mapError .scalar
    | _ => throw .malformed
    return .moment
  else if tag == Tag.binary then
    let s ← scalar .ok
    if s.toList.any fun c => 127 < c.toNat then throw .malformed
    match Scalar.base64? s.toList with
    | some bs => return .bytes bs
    | none => throw .malformed
  else throw .malformed

/-- Whether a value has children. -/
def hasChildren (v : Value) : Bool := !v.isKey

/-- The document after reading a node, unless it has been read, and the node if it
has children to be read. -/
def visit (d : Draft) (id : Nat) : Except Fault (Draft × List Nat) := do
  if ((d.values[id]?).getD none).isSome then return (d, [])
  else
    let v ← d.shallowValue id
    return (d.setValue id v, if hasChildren v then [id] else [])

/-- Reads some nodes in order. -/
def visitAll (d : Draft) (ids : List Nat) : Except Fault (Draft × List Nat) :=
  ids.foldlM
    (fun (acc : Draft × List Nat) id => do
      let (d, more) ← acc.1.visit id
      return (d, acc.2 ++ more))
    (d, [])

/-- Reads the pairs of a mapping in order; its keys must not be collections. -/
def visitPairs (d : Draft) (ps : List (Nat × Nat)) : Except Fault (Draft × List Nat) :=
  ps.foldlM
    (fun (acc : Draft × List Nat) p => do
      let (d, a) ← acc.1.visit p.1
      if !(d.value p.1).isKey then throw .malformed
      let (d, b) ← d.visit p.2
      return (d, acc.2 ++ a ++ b))
    (d, [])

/-- The single pair of a mapping. -/
def onlyPair (d : Draft) (id : Nat) : Except Fault (Nat × Nat) :=
  match d.content id with
  | .mapping [p] => .ok p
  | _ => .error .malformed

/-- Reads the children of a collection. -/
def enter (d : Draft) (id : Nat) : Except Fault (Draft × List Nat) := do
  match d.value id with
  | .sequence _ =>
    match d.content id with
    | .sequence items =>
      let (d, more) ← d.visitAll items
      return (d.setValue id (.sequence items), more)
    | _ => throw .malformed
  | .mapping _ =>
    let d ← d.merged id
    let ps := d.pairs id
    let (d, more) ← d.visitPairs ps
    return (d.setValue id (.mapping ps), more)
  | .set _ =>
    let d ← d.merged id
    let ps := d.pairs id
    let (d, more) ← d.visitPairs ps
    return (d.setValue id (.set ps), more)
  | .ordered _ =>
    match d.content id with
    | .sequence items =>
      let (d, more, ps) ← items.foldlM
        (fun (acc : Draft × List Nat × List (Nat × Nat)) item => do
          let (d, queue, ps) := acc
          let p ← d.onlyPair item
          let (d, more) ← d.visitAll [p.1, p.2]
          return (d, queue ++ more, ps ++ [p]))
        (d, [], [])
      return (d.setValue id (.ordered ps), more)
    | _ => throw .malformed
  | _ => return (d, [])

/-- Reads the children of the collections that are left, and of those met on the way. -/
def openAll : (allowed : Nat) → (queue : List Nat) → Draft → Except Fault Draft
  | _, [], d => .ok d
  | 0, _ :: _, _ => .error .malformed
  | allowed + 1, id :: queue, d => do
    let (d, more) ← d.enter id
    openAll allowed (queue ++ more) d

/-- The document that some nodes make. -/
def ofNodes (nodes : Nodes) (root : Nat) : Except Fault Draft := do
  let (d, queue) ← visit ⟨nodes, Array.replicate nodes.size none, root⟩ root
  openAll (nodes.size + 1) queue d

/-- The one document of a text, if it has one. -/
def read (s : String) : Except Fault (Option Draft) := do
  match ← compose (← tokens s.toList) with
  | (_, none) => return none
  | (nodes, some root) => return some (← ofNodes nodes root)

end Draft

/-- The document of a text; an empty one where the text holds none. -/
def load (s : String) : Except Failure Document :=
  match Draft.read s with
  | .error .malformed => .error (.notYaml "")
  | .error (.scalar fault) => .error (.scalar fault)
  | .ok none => .ok .empty
  | .ok (some d) => .ok ⟨d.value, d.root⟩

end Yaml
end CodeSurvey
