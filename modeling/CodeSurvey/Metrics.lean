/-
# Metrics of a repository

Figures about a repository as a whole: averages, counts, shares, scores from zero to one hundred,
and an overall score from zero to ten that weighs them. Averages are rounded when they are reported,
and enter the overall score as they are.

The languages are told with their bytes, the largest share first and equal shares by name; the
size of a file is the recorded one, or that of its text when none was recorded. Coverage is
estimated from the number of test files to that of source files, and the number of test calls
a source file: half a hundred for a test file a source file and forty for a call a source
file, ninety percent at most.
-/

import CodeSurvey.Classification
import CodeSurvey.Contributor
import CodeSurvey.DependencyGraph
import CodeSurvey.Keyed
import CodeSurvey.Number
import CodeSurvey.Pattern
import CodeSurvey.Quality
import CodeSurvey.Repository
import CodeSurvey.Text.Utf8
import CodeSurvey.Total

namespace CodeSurvey

/-- The size of a file in bytes. -/
def SourceFile.bytes (f : SourceFile) : Int :=
  if f.size != 0 then f.size else f.text.utf8ByteSize

/-- A file must have a size: a recorded one, or that of a text with a UTF-8 form. -/
def SourceFile.checkMeasurable (f : SourceFile) : Except Failure Unit :=
  if f.size != 0 then .ok () else f.checkEncodable

/-- The language of a file: the recorded one, or that of its path. -/
def Classification.languageOf? (c : Classification) (f : SourceFile) : Option String :=
  match f.language with
  | some l => if l.isEmpty then c.language? f.path else some l
  | none => c.language? f.path

/-- The size of all files in bytes. -/
def totalBytes (files : List SourceFile) : Int := total (files.map (·.bytes))

/-- The bytes of each language, the largest share first. -/
def bytesByLanguage (c : Classification) (files : List SourceFile) : List (String × Int) :=
  let add (shares : List (String × Int)) (f : SourceFile) : List (String × Int) :=
    match c.languageOf? f with
    | some l => if l.isEmpty then shares else Keyed.modify l 0 (· + f.bytes) shares
    | none => shares
  (files.foldl add []).mergeSort fun a b => b.2 < a.2 || (a.2 == b.2 && !(b.1 < a.1))

namespace Coverage

open Pattern in
/-- A call that a test makes. -/
def testCall : Pattern :=
  all [wordEdge, any (["test", "it", "describe", "should", "expect", "assert"].map anyCase),
    blanks, one '(']

/-- The number of test calls in a text. -/
def callCount (content : String) : Nat := (testCall.findAll content.toList).length

/-- No estimate is above this. -/
def cap : Binary64 := Binary64.ofInt 90

/-- The percentage for numbers of tests, sources and test calls. -/
def percentage (tests sources calls : Nat) : Binary64 :=
  Binary64.ofRatio tests sources * Binary64.ofInt 50 + Binary64.ofRatio calls sources *
    Binary64.ofInt 40

/-- The coverage estimated for some files, to one place. -/
def estimate (c : Classification) (files : List SourceFile) : Binary64 :=
  let tests := files.filter fun f => c.isTest f.path
  let sources := files.filter fun f => c.isAnalyzable f.path && !c.isTest f.path
  if tests.isEmpty || sources.isEmpty then .zero
  else
    let calls := total (tests.map fun f => callCount f.text)
    (Binary64.min cap (percentage tests.length sources.length calls)).roundTo 1

end Coverage

/-- The metrics of a repository. -/
structure Metrics where
  complexity : Binary64
  maintainability : Binary64
  files : Nat
  analyzable : Nat
  measured : Nat
  lines : Int
  commits : Nat
  contributors : Nat
  busFactor : Nat
  coverage : Binary64
  languages : List (String × Int)
  bytes : Int
  recentCommits : Nat
  securityScore : Int
  debtScore : Int
  score : Binary64
  edges : Nat
  inferred : Bool

namespace Metrics

/-- Activity is recent for so many days. -/
def recentDays : Int := 30

/-- The number of commits after the moment some days before now. -/
def recentCount (now : Moment) (days : Int) (commits : List Commit) : Except Failure Nat := do
  let cutoff ← now.daysBefore days
  return (commits.filterMap fun c => Moment.ofDate? c.date).countP fun m => cutoff < m.instant

/-- The decimal of some tenths or hundredths. -/
def decimal (digits : Nat) (places : Nat) : Binary64 :=
  Binary64.ofDecimal false digits (-(places : Int))

/-- The overall score, to one place. -/
def overall (maintainability complexity coverage security debt : Binary64) : Binary64 :=
  let simplicity := Binary64.max .zero (hundred - complexity * Binary64.ofInt 5)
  let sum :=
    maintainability * decimal 3 1 + simplicity * decimal 25 2 + coverage * decimal 2 1 +
      security * decimal 15 2 + debt * decimal 1 1
  (sum / Binary64.ofInt 10).roundTo 1

/-- The average of some numbers, zero of none. -/
def average (ns : List Int) : Except Failure Binary64 :=
  if ns.isEmpty then .ok .zero else ratio (total ns) ns.length

/-- A score that starts at one hundred and loses some points for each finding. -/
def scoreAfter (points findings : Nat) : Int := max 0 (100 - (findings * points : Nat))

/-- The lines of a file: those measured, or all lines of its text. -/
def linesOf (quality : List QualityMetric) (f : SourceFile) : Int :=
  match Quality.find? f.path quality with
  | some m => m.lines
  | none => (Text.lines f.text.toList).length

/-- What metrics are derived from. -/
structure Facts where
  files : List SourceFile
  analyzable : List SourceFile
  commits : List Commit
  contributors : List Contributor
  quality : List QualityMetric
  graph : DependencyGraph
  securityFindings : Nat
  debtFindings : Nat

/-- All files must have sizes; those in a known language are measured first. -/
def checkMeasurable (c : Classification) (files : List SourceFile) : Except Failure Unit := do
  (files.filter fun f => (c.languageOf? f).any (!·.isEmpty)).forM SourceFile.checkMeasurable
  files.forM SourceFile.checkMeasurable

/-- The metrics that follow from some facts. -/
def derive (c : Classification) (now : Moment) (x : Facts) : Except Failure Metrics := do
  let complexity ← average (x.quality.map (·.complexity))
  let maintainability ← average (x.quality.map (·.maintainability))
  let coverage := Coverage.estimate c x.files
  let securityScore := scoreAfter 5 x.securityFindings
  let debtScore := scoreAfter 2 x.debtFindings
  let busFactor ← Contributor.busFactor x.contributors
  checkMeasurable c x.files
  let recentCommits ← recentCount now recentDays x.commits
  return {
    complexity := complexity.roundTo 2
    maintainability := maintainability.roundTo 2
    files := x.files.length
    analyzable := x.analyzable.length
    measured := x.quality.length
    lines := total (x.analyzable.map (linesOf x.quality))
    commits := x.commits.length
    contributors := x.contributors.length
    languages := bytesByLanguage c x.files
    bytes := totalBytes x.files
    score :=
      overall maintainability complexity coverage (Binary64.ofInt securityScore)
        (Binary64.ofInt debtScore)
    edges := x.graph.edges.length
    inferred := x.graph.fallback
    coverage, securityScore, debtScore, busFactor, recentCommits }

end Metrics
end CodeSurvey
