/-
# Findings by line

Several analyzers look at each line of each file for patterns. A pattern may be limited to files
with certain extensions. The finds are in the order of files, then lines, then patterns.
-/

import CodeSurvey.Classification
import CodeSurvey.Pattern
import CodeSurvey.Repository

namespace CodeSurvey

/-- A pattern and what a line on which it occurs is taken for. -/
structure LinePattern where
  pattern : Pattern
  kind : String
  severity : String := "info"
  effort : String := "medium"
  cwe : Option String := none
  extensions : Option (List String) := none

/-- Whether a pattern is looked for in a file. -/
def LinePattern.appliesTo (p : LinePattern) (path : String) : Bool :=
  p.extensions.all fun es => es.contains (extensionOf path)

/-- A line of a file, counted from one, and a pattern that occurs on it. -/
structure LineFind (α : Type) where
  file : SourceFile
  number : Nat
  line : List Char
  pattern : α

/-- The lines of a text, each with its number. -/
def numberedLines (cs : List Char) : List (Nat × List Char) :=
  (Text.lines cs).zipIdx.map fun (l, i) => (i + 1, l)

/-- The finds in some files, of patterns given by `view`. -/
def scanLines {α : Type} (view : α → LinePattern) (patterns : List α) (files : List SourceFile) :
    List (LineFind α) :=
  files.flatMap fun f =>
    let applicable := patterns.filter fun p => (view p).appliesTo f.path
    if applicable.isEmpty then []
    else
      (numberedLines f.text.toList).flatMap fun (n, l) =>
        (applicable.filter fun p => (view p).pattern.occursIn l).map fun p => ⟨f, n, l, p⟩

/-- A line as descriptions quote it: trimmed, and at most two hundred characters of it. -/
def quotedLine (l : List Char) : String := String.ofList ((Text.trim l).take 200)

/-- The extensions of JavaScript and TypeScript. -/
def ecmascriptExtensions : List String :=
  [".js", ".jsx", ".mjs", ".cjs", ".ts", ".tsx", ".mts", ".cts"]

/-- The extensions of TypeScript. -/
def typescriptExtensions : List String := [".ts", ".tsx", ".mts", ".cts"]

end CodeSurvey
