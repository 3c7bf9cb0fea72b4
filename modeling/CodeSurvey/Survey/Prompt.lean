/-
# The prompt for a summary

The text that a generator is asked to summarise a repository from: what the metadata says, the
number of files and edges, and the files of greatest complexity. There is no prompt where what the
metadata says, or a number, cannot be written.
-/

import CodeSurvey.DependencyGraph
import CodeSurvey.Quality

namespace CodeSurvey
namespace Prompt

/-- The instruction that goes with every prompt. -/
def instruction : String :=
  "You are a senior engineer writing a concise executive summary of a code repository. " ++
    "Only describe what the supplied facts support."

/-- A prompt names so many files. -/
def filesNamed : Nat := 10

/-- The first value of the metadata that says something. -/
def telling? (r : Repository) (names : List String) : Option Json :=
  (names.map r.meta).find? (·.isTruthy)

/-- What the metadata says, or a word, where there is room for so many values inside one another. -/
def saying (room : Nat) (r : Repository) (names : List String) (otherwise : String) :
    Except Failure String :=
  match telling? r names with
  | some v => (v.written room).mapError .ofUnwritable
  | none => .ok otherwise

/-- The complexity by which a file is ranked. -/
def complexityOf (quality : List QualityMetric) (f : SourceFile) : Int :=
  ((Quality.find? f.path quality).map (·.complexity)).getD 0

/-- The files by complexity, the greatest first. -/
def ranked (quality : List QualityMetric) (files : List SourceFile) : List SourceFile :=
  files.mergeSort fun a b => complexityOf quality b ≤ complexityOf quality a

/-- The line of a file. -/
def fileLine (quality : List QualityMetric) (f : SourceFile) : Except Failure String := do
  let detail ← match Quality.find? f.path quality with
    | some m => ("complexity " ++ ·) <$> Numeral.written m.complexity
    | none => (· ++ " bytes") <$> Numeral.written f.size
  return "- " ++ f.path ++ " (" ++ detail ++ ")"

/-- The prompt. -/
def text (room : Nat) (r : Repository) (files : List SourceFile) (graph : DependencyGraph)
    (quality : List QualityMetric) : Except Failure String := do
  let name ← saying room r ["full_name", "name"] "unknown"
  let description ← saying room r ["description"] "n/a"
  let lines ← ((ranked quality files).take filesNamed).mapM (fileLine quality)
  return "\n".intercalate
    (["Analyze the following repository and provide a concise executive summary.",
        "Repository: " ++ name,
        "Description: " ++ description,
        "Default branch: " ++ r.defaultBranch,
        "Analyzable files: " ++ toString files.length ++ "; dependency edges: " ++
          toString graph.edges.length,
        "Key files:"] ++
      lines ++
      ["Based on this information, what is the primary purpose of this repository?"])

end Prompt
end CodeSurvey
