/-
# The imports of a file

A finder reads the imports of the files that it supports, or leaves a text to the next finder. Of
several finders the first that answers decides, and the result is the distinct specifiers in order.
The library has two: a file that has a grammar is read from its tree; where that gives no clean
tree, and for files without a grammar, imports are found by patterns.
-/

import CodeSurvey.Import.FromText
import CodeSurvey.Import.FromTree

namespace CodeSurvey

/-- A way to find imports: the paths it is for, and the imports in a text, unless it
leaves the text to others. -/
structure ImportFinder where
  supports : (path : String) → Bool
  find : (path text : String) → Except Failure (Option (List ImportReference))

namespace ImportFinder

/-- Finds imports in the tree of a text. -/
def fromTree (p : Parser) : ImportFinder := ⟨p.supports, FromTree.extract p⟩

/-- Finds imports by patterns. -/
def fromText : ImportFinder :=
  ⟨fun _ => true, fun path text => .ok (some (FromText.extract path text))⟩

/-- The imports that the first finder gives which supports the path and answers. -/
def firstAnswer (path text : String) : List ImportFinder → Except Failure (List ImportReference)
  | [] => .ok []
  | x :: rest => do
    let answer ← if x.supports path then x.find path text else pure none
    match answer with
    | some references => return references
    | none => firstAnswer path text rest

end ImportFinder

/-- What gives the specifiers that a file imports. -/
abbrev Scanner := (path : String) → (content : Option String) → Except Failure (List String)

/-- The distinct specifiers that finders give for a file, in order of first mention. -/
def scanWith (finders : List ImportFinder) : Scanner := fun path content => do
  let text := content.getD ""
  if text.isEmpty then return []
  return distinctTrimmed ((← ImportFinder.firstAnswer path text finders).map (·.specifier))

/-- The distinct specifiers that a file imports, in order of first mention. -/
def scanImports (p : Parser) : Scanner := scanWith [.fromTree p, .fromText]

end CodeSurvey
