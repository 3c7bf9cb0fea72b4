/-
# Imports in a text that does not parse

What still looks like an import, found by patterns. The matches of several patterns are put in the
order in which they start; matches that start together stay in the order of their patterns.
-/

import CodeSurvey.Classification
import CodeSurvey.Import
import CodeSurvey.Pattern

namespace CodeSurvey
namespace FromText

open Text Pattern

/-- A specifier in quotes on one line, captured as number one. -/
def quotedSpecifier : Pattern :=
  all [char isQuote, capture 1 (some1 (char fun c => !isQuote c && c != '\n')), char isQuote]

/-- A character of the names that an import binds. -/
def isClauseChar (c : Char) : Bool :=
  isWord c || isBlank c || c == '*' || c == '\x7b' || c == '\x7d' || c == ',' || c == '$'

/-- A statement `import … from` or `export … from`, or an import of a module alone. -/
def staticImport : Pattern :=
  all [wordEdge, words ["import", "export"], blanks1,
    optional (all [fewest1 (char isClauseChar), blanks1, word "from", blanks1]), quotedSpecifier]

/-- A call of a loading function with one quoted text. -/
def loadCall (name : String) : Pattern :=
  all [wordEdge, word name, blanks, one '(', blanks, quotedSpecifier, blanks, one ')']

/-- A space or a tab. -/
def gap : Pattern := char fun c => c == ' ' || c == '\t'

/-- A character of a dotted name. -/
def isDotted (c : Char) : Bool := isWord c || c == '.'

/-- A relative `from` import: its dots, its module, and the names it binds. -/
def fromRelative : Pattern :=
  all [lineStart, many gap, word "from", some1 gap, capture 1 (some1 (one '.')),
    capture 2 (many (char isDotted)), some1 gap, word "import", some1 gap, optional (one '('),
    capture 3 (many (char fun c => c != ')' && c != '#' && c != '\n'))]

/-- A dotted name that starts with a word character. -/
def dottedName : Pattern := seq (char isWord) (many (char isDotted))

/-- A `from` import of a named module. -/
def fromAbsolute : Pattern :=
  all [lineStart, many gap, word "from", some1 gap, capture 1 dottedName, some1 gap, word "import",
    wordEdge]

/-- An `import` statement, of which the first module is captured. -/
def plainImport : Pattern :=
  all [lineStart, many gap, word "import", some1 gap, capture 1 dottedName]

/-- The line of an offset, counted from one. -/
def lineOf (cs : List Char) (offset : Nat) : Nat := (cs.take offset).count '\n' + 1

/-- A captured text of a match. -/
def captured (f : Found) (n : Nat) : List Char := (f.stop.group? n).getD []

/-- A name in a list of names, without its alias; nothing when it is no plain name. -/
def boundName? (cs : List Char) : Option (List Char) :=
  let name := trim (before " as ".toList (trim cs))
  if name.isEmpty || !name.all isWord then none else some name

/-- The imports that a relative `from` import makes, each with the place where it starts. -/
def relativeReferences (cs : List Char) (f : Found) : List (Nat × ImportReference) :=
  let named (module : List Char) : Nat × ImportReference :=
    (f.start, ⟨String.ofList (relativeSpecifier (captured f 1).length module), .fromModule,
      lineOf cs f.start⟩)
  if !(captured f 2).isEmpty then [named (captured f 2)]
  else ((fields ',' (captured f 3)).filterMap boundName?).map named

/-- The matches of a pattern that captures a specifier, each with the place where it starts. -/
def referencesOf (p : Pattern) (kind : ImportKind) (cs : List Char) :
    List (Nat × ImportReference) :=
  (p.findAll cs).map fun f =>
    (f.start, ⟨String.ofList (captured f 1), kind, lineOf cs f.start⟩)

/-- What looks like an import of Python. -/
def pythonReferences (cs : List Char) : List (Nat × ImportReference) :=
  (fromRelative.findAll cs).flatMap (relativeReferences cs) ++
    referencesOf fromAbsolute .fromModule cs ++ referencesOf plainImport .plain cs

/-- What looks like an import of JavaScript or TypeScript. -/
def ecmascriptReferences (cs : List Char) : List (Nat × ImportReference) :=
  referencesOf staticImport .static cs ++ referencesOf (loadCall "import") .dynamic cs ++
    referencesOf (loadCall "require") .require cs

/-- The extensions of Python sources. -/
def pythonExtensions : List String := [".py", ".pyw"]

/-- What looks like an import in a text, in order. -/
def extract (path content : String) : List ImportReference :=
  let cs := content.toList
  let found :=
    if pythonExtensions.contains (extensionOf path) then pythonReferences cs
    else ecmascriptReferences cs
  (found.mergeSort fun a b => a.1 ≤ b.1).map Prod.snd

end FromText
end CodeSurvey
