/-
# Quality of files

Every file gets one metric. A file without text has the best one. A file with a clean tree is
measured by the tree; one whose text does not parse is estimated from keywords and marked as a
fallback; one in a language without a grammar is estimated too, but that is no fallback. A
computation that fails gives the fallback metric of its own. Each fallback leaves exactly one
warning that names the file.

Files are scored in batches. After each batch the number of files done is recorded, and before each
batch the token may stop the run.
-/

import CodeSurvey.Complexity
import CodeSurvey.Journal
import CodeSurvey.Parsing
import CodeSurvey.Repository

namespace CodeSurvey

/-- The quality of a file. -/
structure QualityMetric where
  path : String
  complexity : Int
  maintainability : Int
  lines : Int
  fallback : Bool := false
  deriving DecidableEq, Repr

namespace Quality

/-- The step that warnings of this stage name. -/
def step : String := "quality"

/-- The index given to files that should parse and do not. -/
def unparsedIndex : Int := 50

/-- The index given to files in languages without a grammar. -/
def nonCodeIndex : Int := 75

/-- The metric of a file, unless it cannot be computed. -/
def measure (c : Classification) (p : Parser) (f : SourceFile) : Attempt QualityMetric := do
  let text := f.text.toList
  if (Text.trim text).isEmpty then return ⟨f.path, 1, 100, 0, false⟩
  let language := match f.language with
    | some l => if l.isEmpty then c.language? f.path else some l
    | none => c.language? f.path
  let lines := logicalLines (commentMarks (language.getD "")) text
  if c.isParseable f.path && p.supports f.path then
    let parsed ← liftExcept (p.parse f.path f.text)
    match parsed.tree with
    | .ok tree =>
      let complexity := cyclomaticComplexity (.ofGrammar parsed.grammar) tree
      return ⟨f.path, complexity, ← liftExcept (maintainabilityIndex complexity lines),
        lines, false⟩
    | .error e =>
      warn step ("Could not parse " ++ f.path ++ "; complexity estimated from keywords") e
      return ⟨f.path, keywordComplexity text, unparsedIndex, lines, true⟩
  else return ⟨f.path, keywordComplexity text, nonCodeIndex, lines, false⟩
where
  liftExcept {α : Type} (x : Except Failure α) : Attempt α := ExceptT.mk (pure x)

/-- The metric of a file; one that cannot be computed is the fallback metric. -/
def score (c : Classification) (p : Parser) (f : SourceFile) : Recorded QualityMetric := do
  match ← (measure c p f).outcome with
  | .ok m => return m
  | .error e =>
    warn step ("Quality analysis failed for " ++ f.path) e.detail
    return ⟨f.path, 1, unparsedIndex, 0, true⟩

/-- The metrics after one more: it replaces the one of the same path. -/
def put (m : QualityMetric) : List QualityMetric → List QualityMetric
  | [] => [m]
  | n :: rest => if n.path == m.path then m :: rest else n :: put m rest

/-- The metric of a path. -/
def find? (path : String) (ms : List QualityMetric) : Option QualityMetric :=
  ms.find? (·.path == path)

/-- Scores some files one after another. -/
def scoreAll (c : Classification) (p : Parser) (ms : List QualityMetric) :
    List SourceFile → Recorded (List QualityMetric)
  | [] => pure ms
  | f :: rest => do scoreAll c p (put (← score c p f) ms) rest

/-- Scores the files that are left in batches of `more + 1`, `done` of `total` being scored already;
`stopped` says after how many files the token stops the run. -/
def scoreBatches (c : Classification) (p : Parser) (more : Nat) (stopped : Nat → Bool) (total : Nat)
    (done : Nat) (ms : List QualityMetric) : List SourceFile → Attempt (List QualityMetric)
  | [] => pure ms
  | f :: rest =>
    if stopped done then throw (.cancelled step)
    else do
      let ms ← (scoreAll c p ms (f :: rest.take more) : Recorded _)
      let done := done + (f :: rest.take more).length
      Recorded.tell (.advance done total)
      scoreBatches c p more stopped total done ms (rest.drop more)
termination_by files => files.length
decreasing_by simp only [List.length_drop, List.length_cons]; omega

/-- Scores files in batches of the given size, of one file at least. -/
def scoreFiles (c : Classification) (p : Parser) (batchSize : Int) (stopped : Nat → Bool)
    (files : List SourceFile) : Attempt (List QualityMetric) :=
  scoreBatches c p ((max 1 batchSize).toNat - 1) stopped files.length 0 [] files

end Quality
end CodeSurvey
