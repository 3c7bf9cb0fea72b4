/-
# Files that belong together by their place

Three kinds of evidence, without any history: two files stand in one small directory, they share the
stem of their names within a small group, or one is the index file of a directory and refers to the
other. The stem of a name is what is left in lower case without a leading `test_` and without the
words that mark tests, styles and the like at its end; short and general stems tell nothing.
-/

import CodeSurvey.Classification
import CodeSurvey.Coupling
import CodeSurvey.Pattern
import CodeSurvey.Repository

namespace CodeSurvey
namespace Coupling

open Text Pattern

/-- The words that follow a separator at the end of a stem. -/
def separatedSuffix : Pattern :=
  seq (char fun c => c == '.' || c == '_' || c == '-')
    (any [word "test", word "tests", word "spec", word "component", word "container",
      seq (word "style") (optional (one 's')), word "stories"])

/-- The words that follow a small letter or digit at the end of a stem. -/
def camelSuffix : Pattern :=
  seq (after fun c => isLowerAscii c || isDigitAscii c)
    (any [word "Test", word "Tests", word "Spec", word "Component", word "Container",
      seq (word "Style") (optional (one 's')), word "Stories"])

/-- One or more such words at the end. -/
def stemSuffixes : Pattern := seq (some1 (orElse separatedSuffix camelSuffix)) textEnd

/-- A stem without the words at its end. -/
def dropSuffixes (stem : List Char) : List Char :=
  match stemSuffixes.search stem with
  | some f => stem.take f.start ++ f.stop.rest
  | none => stem

/-- Stems that tell nothing. -/
def generalStems : List String :=
  ["index", "main", "__init__", "app", "utils", "types", "constants", "config"]

/-- The length of the shortest stem that tells something. -/
def shortestStem : Nat := 3

/-- The part of a name before its first dot. -/
def beforeDot (name : List Char) : List Char := name.takeWhile (· != '.')

/-- The stem of a name, if it tells something. -/
def namingStem (name : List Char) : Option String :=
  let stem := beforeDot name
  let stem := if "test_".toList.isPrefixOf (lower stem) then stem.drop 5 else stem
  let stem := lower (dropSuffixes stem)
  if stem.length < shortestStem || generalStems.contains (String.ofList stem) then none
  else some (String.ofList stem)

/-- A reference to a sibling in Python: an import from the sibling or of it. -/
def pythonReference (stem : String) : Pattern :=
  orElse (all [word "from", blanks1, one '.', word stem, wordEdge])
    (all [word "from", blanks1, one '.', blanks1, word "import", blanks1,
      many (char (· != '\n')), wordEdge, word stem, wordEdge])

/-- A reference to a sibling elsewhere: its path in quotes, an extension and more at will. -/
def quotedReference (stem : String) : Pattern :=
  all [char isPlainQuote, word "./", word stem, optional (seq (one '.') (some1 (char isWord))),
    char fun c => isPlainQuote c || c == '/']

/-- Whether a text refers to a sibling by its stem. -/
def refersTo (content stem : String) (python : Bool) : Bool :=
  (if python then pythonReference stem else quotedReference stem).occursIn content.toList

/-- Two files and one piece of evidence for them. -/
def evidence (a b : String) (weight : Binary64) (source : String) : CouplingPair :=
  let (a, b) := orderedKey a b
  { first := a, second := b, weight, sources := [source] }

/-- Paths by some key, in order of first mention. -/
def groupPaths (keyOf : String → Option String) (paths : List String) :
    List (String × List String) :=
  paths.foldl
    (fun groups p =>
      match keyOf p with
      | some k => Keyed.modify k [] (· ++ [p]) groups
      | none => groups) []

/-- The evidence of groups whose size is from two up to a maximum. -/
def groupEvidence (maximum : Nat) (weight : Binary64) (source : String)
    (groups : List (String × List String)) : List CouplingPair :=
  (groups.filter fun g => 2 ≤ g.2.length && g.2.length ≤ maximum).flatMap fun g =>
    (laterPairs g.2).map fun (a, b) => evidence a b weight source

/-- The largest directory whose files belong together. -/
def largestDirectory : Nat := 14

/-- The largest group of files that a common stem joins. -/
def largestCluster : Nat := 8

/-- Whether a file is the index of its directory. -/
def isIndexName (name : List Char) : Bool :=
  ["index", "__init__"].contains (String.ofList (beforeDot name))

/-- The evidence of an index file for the siblings it refers to. -/
def indexEvidence (weight : Binary64) (siblings : List String) (f : SourceFile) :
    List CouplingPair :=
  let name := Path.name f.path.toList
  if !isIndexName name || !f.hasText then []
  else
    (siblings.filter fun s => s != f.path &&
      refersTo f.text (String.ofList (beforeDot (Path.name s.toList)))
        (endsWith ".py".toList name)).map
      fun s => evidence f.path s weight "index"

/-- The most pairs that places give. -/
def structuralLimit : Int := 100

/-- The pairs of files that belong together by their place, merged and ranked. -/
def structuralCouplings (c : Classification) (s : CouplingSettings) (files : List SourceFile) :
    Except Failure (List CouplingPair) :=
  let chosen := files.filter fun f => c.isAnalyzable f.path
  let paths := chosen.map (·.path)
  let byDirectory := groupPaths (fun p => some (Path.directoryOf p)) paths
  let byStem := groupPaths (fun p => namingStem (Path.name p.toList)) paths
  let siblings (p : String) : List String := (byDirectory.lookup (Path.directoryOf p)).getD []
  mergePairs structuralLimit
    (groupEvidence largestDirectory s.directoryWeight "directory" byDirectory ++
      groupEvidence largestCluster s.namingWeight "naming" byStem ++
      chosen.flatMap fun f => indexEvidence s.indexWeight (siblings f.path) f)

end Coupling
end CodeSurvey
