/-
# Syntax trees

The tree that a grammar's parser gives for a source text. A node spans bytes of the source and knows
its field in its parent, whether it is named, whether the parser made it up (`missing`), and whether
an error lies in it (`broken`).

A tree is listed parent first, children from left to right, in two ways: `walk` keeps the subtrees
still to visit on a stack, so a deep tree needs no deep recursion; `preorder` follows the tree. A
listing with child counts determines the tree (`ofPreorder?`).
-/

import CodeSurvey.Text.Utf8

namespace CodeSurvey

/-- What a node says about itself. -/
structure NodeLabel where
  kind : String
  start : Nat
  stop : Nat
  field : Option String := none
  named : Bool := true
  missing : Bool := false
  broken : Bool := false
  deriving DecidableEq, Repr

/-- A syntax tree. -/
inductive SyntaxTree
  | node (label : NodeLabel) (children : List SyntaxTree)

namespace SyntaxTree

/-- What the root says about itself. -/
def label : SyntaxTree → NodeLabel
  | node l _ => l

/-- The children of the root. -/
def children : SyntaxTree → List SyntaxTree
  | node _ cs => cs

/-- The kind of the root. -/
def kind (t : SyntaxTree) : String := t.label.kind

/-- Whether an error lies in the tree or its root was made up. -/
def hasFault (t : SyntaxTree) : Bool := t.label.broken || t.label.missing

mutual

/-- The number of nodes. -/
def size : SyntaxTree → Nat
  | node _ cs => 1 + sizes cs

/-- The number of nodes of several trees. -/
def sizes : List SyntaxTree → Nat
  | [] => 0
  | t :: ts => size t + sizes ts

end

theorem sizes_append (ts us : List SyntaxTree) : sizes (ts ++ us) = sizes ts + sizes us := by
  induction ts with
  | nil => simp [sizes]
  | cons t ts ih => simp [sizes, ih, Nat.add_assoc]

theorem sizes_filter_le (p : SyntaxTree → Bool) (ts : List SyntaxTree) :
    sizes (ts.filter p) ≤ sizes ts := by
  induction ts with
  | nil => simp
  | cons t ts ih =>
    by_cases h : p t
    · simp only [List.filter_cons, h, if_true, sizes]; omega
    · simp only [List.filter_cons, h, Bool.false_eq_true, if_false, sizes]; omega

theorem size_eq (t : SyntaxTree) : size t = 1 + sizes t.children := by
  cases t; simp [size, children]

/-- Visits the trees on a stack, the children that pass the test before what was there. -/
def walkStack (keep : SyntaxTree → Bool) : List SyntaxTree → List SyntaxTree
  | [] => []
  | t :: rest => t :: walkStack keep (t.children.filter keep ++ rest)
termination_by stack => sizes stack
decreasing_by
  have := sizes_filter_le keep t.children
  simp only [sizes, sizes_append, size_eq t]
  omega

/-- All subtrees, parents first. -/
def walk (t : SyntaxTree) : List SyntaxTree := walkStack (fun _ => true) [t]

/-- The root and, below it, only the subtrees that have a fault and whose ancestors have one. -/
def walkFaults (t : SyntaxTree) : List SyntaxTree := walkStack hasFault [t]

mutual

/-- All subtrees, parents first, by recursion on the tree. -/
def preorder : SyntaxTree → List SyntaxTree
  | node l cs => node l cs :: preorders cs

/-- All subtrees of several trees. -/
def preorders : List SyntaxTree → List SyntaxTree
  | [] => []
  | t :: ts => preorder t ++ preorders ts

end

mutual

/-- All subtrees, parents first, each with its parent. -/
def withParents (parent : Option SyntaxTree) : SyntaxTree → List (Option SyntaxTree × SyntaxTree)
  | node l cs => (parent, node l cs) :: allWithParents (node l cs) cs

/-- All subtrees of the children of a node, each with its parent. -/
def allWithParents (parent : SyntaxTree) :
    List SyntaxTree → List (Option SyntaxTree × SyntaxTree)
  | [] => []
  | t :: ts => withParents (some parent) t ++ allWithParents parent ts

end

/-- The first child in a field. -/
def child? (field : String) (t : SyntaxTree) : Option SyntaxTree :=
  t.children.find? fun c => c.label.field == some field

/-- The children in a field. -/
def childrenIn (field : String) (t : SyntaxTree) : List SyntaxTree :=
  t.children.filter fun c => c.label.field == some field

/-- The named children. -/
def namedChildren (t : SyntaxTree) : List SyntaxTree := t.children.filter (·.label.named)

/-- The tree whose nodes are listed parents first, each with the number of its children; the listing
is read from its end, where each node takes as many of the trees read so far as it has children. -/
def ofPreorder? (rows : List (NodeLabel × Nat)) : Option SyntaxTree :=
  (rows.foldr (fun (l, n) trees => node l (trees.take n) :: trees.drop n) []).head?

end SyntaxTree

/-- The place of a byte offset: the number of line feeds before it and of
bytes since the last one. -/
def placeOf (source : List UInt8) (offset : Nat) : Nat × Nat :=
  let head := source.take offset
  let line := head.reverse.takeWhile (· != 10)
  (head.count 10, offset - (head.length - line.length))

/-- The text between two byte offsets, without characters that an offset cuts. -/
def sliceText (source : List UInt8) (start stop : Nat) : String :=
  Utf8.decodeLenient ((source.drop start).take (stop - start))

/-- The text of a node. -/
def SyntaxTree.textIn (source : List UInt8) (t : SyntaxTree) : String :=
  sliceText source t.label.start t.label.stop

/-- The line on which a node starts, counted from one. -/
def SyntaxTree.lineIn (source : List UInt8) (t : SyntaxTree) : Nat :=
  (placeOf source t.label.start).1 + 1

end CodeSurvey
