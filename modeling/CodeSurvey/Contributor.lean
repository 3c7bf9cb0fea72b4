/-
# Contributors

Who wrote the commits: for each author how many, and the first and last date. The most active come
first, and of equally active ones the earlier name. A commit without an author counts for `unknown`.

The bus factor is the least number of contributors, the most active first, whose shares in percent
sum up to fifty at least; it is ten at most.
-/

import CodeSurvey.Keyed
import CodeSurvey.Moment.Reader
import CodeSurvey.Number
import CodeSurvey.Repository
import CodeSurvey.Total

namespace CodeSurvey

/-- An author, the number of commits, and their first and last date if one is known. -/
structure Contributor where
  author : String
  commits : Int
  first : Option String := none
  last : Option String := none
  deriving DecidableEq, Repr

namespace Contributor

/-- The author of a commit. -/
def authorOf (c : Commit) : String := if c.author.isEmpty then "unknown" else c.author

/-- The commits by author, in order of first mention. -/
def byAuthor (commits : List Commit) : List (String × List Commit) :=
  commits.foldl (fun groups c => Keyed.modify (authorOf c) [] (· ++ [c]) groups) []

/-- The contributor who wrote some commits. -/
def ofCommitsBy (author : String) (commits : List Commit) : Contributor where
  author
  commits := commits.length
  first := earliestDate (commits.map (·.date))
  last := latestDate (commits.map (·.date))

/-- Whether a contributor may stand before another. -/
def ranksBefore (a b : Contributor) : Bool :=
  b.commits < a.commits || (a.commits == b.commits && !(b.author < a.author))

/-- The contributors who wrote the commits, the most active first. -/
def ofCommits (commits : List Commit) : List Contributor :=
  ((byAuthor commits).map fun g => ofCommitsBy g.1 g.2).mergeSort ranksBefore

/-- The bus factor is not more than this. -/
def busFactorCap : Nat := 10

/-- Half of all commits, in percent. -/
def half : Binary64 := Binary64.ofInt 50

/-- Counts contributors until their shares sum up to a half, from those counted already. -/
def countToHalf (total : Nat) :
    (percent : Binary64) → (counted : Nat) → List Contributor → Except Failure Nat
  | _, counted, [] => .ok counted
  | percent, counted, c :: rest => do
    let percent := percent + (← ratio c.commits total) * hundred
    if half.le percent || busFactorCap ≤ counted + 1 then return counted + 1
    else countToHalf total percent (counted + 1) rest

/-- The number of contributors who made half of all commits. -/
def busFactor (contributors : List Contributor) : Except Failure Nat :=
  let commits := total (contributors.map (·.commits))
  if commits ≤ 0 then .ok 0
  else countToHalf commits.toNat .zero 0 (contributors.mergeSort fun a b => b.commits ≤ a.commits)

end Contributor
end CodeSurvey
