/-
# Parsing source files

The extension of a file chooses its grammar, and the grammar's parser gives a tree. A parser never
refuses a text: it marks what it could not read. A tree marked so at its root is an unclean parse
and only its first error is reported; every other tree is handed on.
-/

import CodeSurvey.Classification
import CodeSurvey.Failure
import CodeSurvey.SyntaxTree

namespace CodeSurvey

/-- The grammars for which a parser exists. -/
def knownGrammars : List String := ["javascript", "typescript", "tsx", "python"]

/-- The grammar of each extension. -/
def standardGrammars : List (String × String) :=
  [(".js", "javascript"), (".jsx", "javascript"), (".mjs", "javascript"), (".cjs", "javascript"),
    (".ts", "typescript"), (".mts", "typescript"), (".cts", "typescript"), (".tsx", "tsx"),
    (".py", "python"), (".pyw", "python")]

/-- A parser: the grammars of extensions, and the tree of a source text in a grammar. -/
structure Parser where
  grammars : List (String × String) := standardGrammars
  tree : (grammar source : String) → Except Failure SyntaxTree

/-- A grammar must be one for which a parser exists. -/
def checkGrammar (grammar : String) : Except Failure Unit :=
  if knownGrammars.contains grammar then .ok () else .error (.unknownGrammar grammar)

/-- What parsing a file gave: a clean tree, or the text of its first error. -/
structure Parsed where
  grammar : String
  source : List UInt8
  tree : Except String SyntaxTree

/-- A place in words, lines and columns counted from one. -/
def atPlace (place : Nat × Nat) : String :=
  "line " ++ toString (place.1 + 1) ++ ", column " ++ toString (place.2 + 1)

/-- What is wrong at a node: nothing, an error, or a missing piece. -/
def faultAt? (source : List UInt8) (t : SyntaxTree) : Option String :=
  let place := atPlace (placeOf source t.label.start)
  if t.kind == "ERROR" then some ("syntax error at " ++ place)
  else if t.label.missing then some ("missing " ++ Text.quoted t.kind ++ " at " ++ place)
  else none

/-- The first thing wrong in a tree; without one, its end is blamed. -/
def describeSyntaxError (source : List UInt8) (root : SyntaxTree) : String :=
  (root.walkFaults.findSome? (faultAt? source)).getD
    ("syntax error at " ++ atPlace (placeOf source root.label.stop))

namespace Parser

/-- The grammar of a path. -/
def grammarFor? (p : Parser) (path : String) : Option String := p.grammars.lookup (extensionOf path)

/-- Whether a path has a grammar. -/
def supports (p : Parser) (path : String) : Bool := (p.grammarFor? path).isSome

/-- Parses the text of a file. -/
def parse (p : Parser) (path content : String) : Except Failure Parsed := do
  match p.grammarFor? path with
  | none => .error (.noGrammar path)
  | some grammar =>
    checkGrammar grammar
    let root ← p.tree grammar content
    let source := Utf8.encode content
    if root.label.broken then return ⟨grammar, source, .error (describeSyntaxError source root)⟩
    else return ⟨grammar, source, .ok root⟩

end Parser
end CodeSurvey
