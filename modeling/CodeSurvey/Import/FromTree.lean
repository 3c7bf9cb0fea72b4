/-
# Imports in a syntax tree

The imports of a cleanly parsed file in the order of its nodes. In JavaScript and TypeScript they
are the statements with a source, the `require` clauses, and calls of `import` or `require` whose
first argument is a literal text; a template with a substitution is none. In Python they are the
names of `import` statements and the modules of `from` statements; a relative `from` without a
module names one module for each name.
-/

import CodeSurvey.Import
import CodeSurvey.Parsing

namespace CodeSurvey
namespace FromTree

/-- The text of a literal without its quotes. -/
def literalText (source : List UInt8) (t : SyntaxTree) : String :=
  String.ofList (Text.trimBy (fun c => c == '\x22' || c == '\x27' || c == '\x60')
    (t.textIn source).toList)

/-- The import of a literal that a statement makes. -/
def reference (source : List UInt8) (kind : ImportKind) (statement literal : SyntaxTree) :
    ImportReference :=
  ⟨literalText source literal, kind, statement.lineIn source⟩

/-- The way in which a call imports, if its function is one that does. -/
def callKind? (source : List UInt8) (call : SyntaxTree) : Option ImportKind :=
  match call.child? "function" with
  | none => none
  | some f =>
    if f.kind == "import" then some .dynamic
    else if f.kind == "identifier" && f.textIn source == "require" then some .require
    else none

/-- Whether a node is a literal text. -/
def isLiteral (t : SyntaxTree) : Bool :=
  t.kind == "string" ||
    (t.kind == "template_string" && !t.namedChildren.any (·.kind == "template_substitution"))

/-- The first argument of a call. -/
def firstArgument? (call : SyntaxTree) : Option SyntaxTree :=
  (call.child? "arguments").bind fun a => a.namedChildren.head?

/-- The import that a node of JavaScript or TypeScript makes. -/
def ecmascriptAt (source : List UInt8) (t : SyntaxTree) : Option ImportReference :=
  if t.kind == "import_statement" then (t.child? "source").map (reference source .static t)
  else if t.kind == "export_statement" then (t.child? "source").map (reference source .reexport t)
  else if t.kind == "import_require_clause" then
    (t.child? "source").map (reference source .require t)
  else if t.kind == "call_expression" then
    match callKind? source t, firstArgument? t with
    | some kind, some argument =>
      if isLiteral argument then some (reference source kind t argument) else none
    | _, _ => none
  else none

/-- The module or name that an imported name stands for, without its alias. -/
def target? (t : SyntaxTree) : Option SyntaxTree :=
  if t.kind == "aliased_import" then t.child? "name"
  else if t.kind == "dotted_name" || t.kind == "identifier" then some t
  else none

/-- The dots of a relative module and the dotted name after them; of several, the last counts. -/
def relativeParts (source : List UInt8) (module : SyntaxTree) : Nat × String :=
  module.children.foldl
    (fun (dots, dotted) c =>
      if c.kind == "import_prefix" then ((c.textIn source).toList.count '.', dotted)
      else if c.kind == "dotted_name" then (dots, c.textIn source)
      else (dots, dotted)) (0, "")

/-- The imports that a node of Python makes. -/
def pythonAt (source : List UInt8) (t : SyntaxTree) : List ImportReference :=
  let line := t.lineIn source
  if t.kind == "import_statement" then
    ((t.childrenIn "name").filterMap target?).map fun n => ⟨n.textIn source, .plain, line⟩
  else if t.kind == "import_from_statement" then
    match t.child? "module_name" with
    | none => []
    | some module =>
      if module.kind != "relative_import" then [⟨module.textIn source, .fromModule, line⟩]
      else
        let (dots, dotted) := relativeParts source module
        let named (name : String) : ImportReference :=
          ⟨String.ofList (relativeSpecifier dots name.toList), .fromModule, line⟩
        if !dotted.isEmpty then [named dotted]
        else ((t.childrenIn "name").filterMap target?).map fun n => named (n.textIn source)
  else []

/-- The imports of a tree. -/
def imports (grammar : String) (source : List UInt8) (root : SyntaxTree) : List ImportReference :=
  if grammar == "python" then root.walk.flatMap (pythonAt source)
  else root.walk.filterMap (ecmascriptAt source)

/-- The imports of a file, none at all where its text does not parse cleanly. -/
def extract (p : Parser) (path content : String) :
    Except Failure (Option (List ImportReference)) := do
  let parsed ← p.parse path content
  match parsed.tree with
  | .ok root => return some (imports parsed.grammar parsed.source root)
  | .error _ => return none

end FromTree
end CodeSurvey
