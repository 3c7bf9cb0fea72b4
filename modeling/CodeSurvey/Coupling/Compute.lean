/-
# The coupling of a repository

The commits speak first. Where there are none, or too few pairs come of them, the places of the
files are added; in a repository of too many files only their places count.
-/

import CodeSurvey.Coupling.Commits
import CodeSurvey.Coupling.Structure
import CodeSurvey.Journal

namespace CodeSurvey
namespace Coupling

/-- The signals that count for a repository. -/
def signals (c : Classification) (s : CouplingSettings) (commits : List Commit)
    (files : List SourceFile) : Except Failure (List (List CouplingPair)) := do
  let tooLarge := s.structuralFiles < files.length
  let useCommits := !commits.isEmpty && !tooLarge
  let pairs ← if useCommits then commitCouplings s commits else pure []
  let useStructure := !useCommits || (pairs.length : Int) < s.sparsePairs
  let structural ← if useStructure then structuralCouplings c s files else pure []
  return (if useCommits then [pairs] else []) ++ (if useStructure then [structural] else [])

/-- The couplings of a repository, ranked. -/
def compute (c : Classification) (s : CouplingSettings) (commits : List Commit)
    (files : List SourceFile) : Attempt (List CouplingPair) := do
  let given ← ExceptT.mk (pure (signals c s commits files))
  let merged ← ExceptT.mk (pure (merge s given))
  inform ("Temporal coupling: " ++ toString merged.length ++ " pairs")
  return merged

end Coupling
end CodeSurvey
