/-
# Key functions

The most complex functions of the parseable files, ranked by complexity, then by length,
then by place. A function without a name takes the name of what it is assigned to. Files
without a clean tree have none.
-/

import CodeSurvey.Complexity
import CodeSurvey.Finding
import CodeSurvey.Parsing
import CodeSurvey.Repository
import CodeSurvey.Slice

namespace CodeSurvey
namespace KeyFunctions

/-- What counts as a key function. -/
structure Options where
  minComplexity : Int := 5
  limit : Int := 20

/-- The kinds of nodes that are functions in a grammar. -/
def functionKinds (grammar : String) : List String :=
  if grammar == "python" then ["function_definition"]
  else
    ["function_declaration", "generator_function_declaration", "function_expression", "function",
      "generator_function", "arrow_function", "method_definition"]

/-- The field of a parent that names a function standing in it. -/
def namingField? (kind : String) : Option String :=
  if kind == "variable_declarator" then some "name"
  else if kind == "pair" then some "key"
  else if kind == "assignment_expression" then some "left"
  else none

/-- The node that names a function. -/
def nameNode? (parent : Option SyntaxTree) (t : SyntaxTree) : Option SyntaxTree :=
  match t.child? "name" with
  | some n => some n
  | none => parent.bind fun p => (namingField? p.kind).bind fun field => p.child? field

/-- The name of a function. -/
def nameOf (source : List UInt8) (parent : Option SyntaxTree) (t : SyntaxTree) : String :=
  match nameNode? parent t with
  | some n => n.textIn source
  | none => "anonymous"

/-- The function that a node is, if it is complex enough. -/
def functionAt? (o : Options) (path : String) (p : Parsed) (parent : Option SyntaxTree)
    (t : SyntaxTree) : Option KeyFunction :=
  if !(functionKinds p.grammar).contains t.kind then none
  else
    let complexity := cyclomaticComplexity (.ofGrammar p.grammar) t
    if (complexity : Int) ≤ o.minComplexity then none
    else
      some ⟨nameOf p.source parent t, path, complexity, t.lineIn p.source,
        (placeOf p.source t.label.stop).1 + 1⟩

/-- The functions of a file that are complex enough. -/
def functionsOf (o : Options) (path : String) (p : Parsed) : List KeyFunction :=
  match p.tree with
  | .error _ => []
  | .ok root => (root.withParents none).filterMap fun (parent, t) => functionAt? o path p parent t

/-- Whether a function may stand before another. -/
def ranksBefore (a b : KeyFunction) : Bool :=
  if a.complexity ≠ b.complexity then b.complexity < a.complexity
  else if a.lineSpan ≠ b.lineSpan then b.lineSpan < a.lineSpan
  else if a.path ≠ b.path then a.path < b.path
  else a.startLine ≤ b.startLine

/-- Whether a file is looked at. -/
def looksAt (c : Classification) (p : Parser) (f : SourceFile) : Bool :=
  f.hasText && c.isParseable f.path && p.supports f.path

/-- The key functions of some files, ranked. -/
def functions (c : Classification) (p : Parser) (o : Options) (files : List SourceFile) :
    Except Failure (List KeyFunction) := do
  let found ← (files.filter (looksAt c p)).mapM fun f =>
    return functionsOf o f.path (← p.parse f.path f.text)
  return upTo o.limit (found.flatten.mergeSort ranksBefore)

end KeyFunctions
end CodeSurvey
