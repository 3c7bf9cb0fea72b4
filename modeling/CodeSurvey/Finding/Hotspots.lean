/-
# Hotspots

Complex files that change often, ranked by the product of the two. One pass over the commits counts
the changes of every path; a commit counts once for each path it changes, however often it lists the
path. A path that no commit changes is not among the counts.
-/

import CodeSurvey.Finding
import CodeSurvey.Keyed
import CodeSurvey.Quality
import CodeSurvey.Slice

namespace CodeSurvey
namespace Hotspots

/-- What counts as a hotspot. -/
structure Options where
  minComplexity : Int := 10
  limit : Int := 20

/-- The counts of changes after one more commit: each path that it changes counts once more. -/
def countCommit (counts : List (String × Nat)) (c : Commit) : List (String × Nat) :=
  c.changed.eraseDups.foldl (fun counts path => Keyed.modify path 0 (· + 1) counts) counts

/-- The number of commits that change each path. -/
def changeCounts (commits : List Commit) : List (String × Nat) := commits.foldl countCommit []

/-- The changes that counts hold of a path. -/
def changesTo (counts : List (String × Nat)) (path : String) : Nat := (counts.lookup path).getD 0

/-- The risk of a score. -/
def riskOf (score : Int) : String :=
  if 200 ≤ score then "high" else if 75 ≤ score then "medium" else "low"

/-- The hotspot that a metric makes, if it does. -/
def spotOf? (o : Options) (counts : List (String × Nat)) (m : QualityMetric) : Option Hotspot :=
  let changes := changesTo counts m.path
  if changes = 0 || m.complexity ≤ o.minComplexity then none
  else
    let score := changes * m.complexity
    some ⟨m.path, m.complexity, changes, score, riskOf score⟩

/-- Whether a hotspot may stand before another: a higher score, or as high and not later by path. -/
def ranksBefore (a b : Hotspot) : Bool :=
  b.score < a.score || (a.score == b.score && !(b.path < a.path))

/-- The hotspots, ranked. -/
def spots (o : Options) (commits : List Commit) (quality : List QualityMetric) : List Hotspot :=
  let counts := changeCounts commits
  upTo o.limit ((quality.filterMap (spotOf? o counts)).mergeSort ranksBefore)

end Hotspots
end CodeSurvey
