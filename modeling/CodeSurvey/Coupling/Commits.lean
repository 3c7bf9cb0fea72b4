/-
# Files that change in the same commits

The commits that count are the latest ones within a window of days before the newest; commits whose
date cannot be read are within every window, and come last. Of these, a commit is evidence when it
changes between two files and a maximum. One pass over the commits counts the changes to each file
and collects what is said of each pair of files that change together (`Tally`). The weight of a pair
is the share of the commits that change both files among those that change either.
-/

import CodeSurvey.Coupling
import CodeSurvey.Repository

namespace CodeSurvey
namespace Coupling

/-- The moment that is latest, the first of equally late ones. -/
def newest? (ms : List Moment) : Option Moment :=
  ms.foldl
    (fun best m =>
      match best with
      | none => some m
      | some b => if b.instant < m.instant then some m else some b) none

/-- Whether a commit lies in the window that starts at an instant; it does if
its date cannot be read. -/
def inWindow (cutoff : Int) (c : Commit) : Bool :=
  match Moment.ofDate? c.date with
  | none => true
  | some m => cutoff ≤ m.instant

/-- The commits that count. -/
def window (s : CouplingSettings) (commits : List Commit) : Except Failure (List Commit) := do
  let recent ← match newest? (commits.filterMap fun c => Moment.ofDate? c.date) with
    | none => pure commits
    | some m =>
      let cutoff ← m.daysBefore s.windowDays
      pure (commits.filter (inWindow cutoff))
  return upTo s.maxCommits (latestFirst (·.date) recent)

/-- The distinct paths that a commit changes, in order. -/
def changedPaths (c : Commit) : List String := Text.sortedDistinct (c.changed.filter (!·.isEmpty))

/-- Whether a commit that changes some paths is evidence. -/
def isEvidence (s : CouplingSettings) (paths : List String) : Bool :=
  2 ≤ paths.length && (paths.length : Int) ≤ s.maxFanout

/-- What commits say of two files that they all change: their number, who made
them, and the latest date. -/
structure CoChange where
  count : Nat := 0
  authors : List String := []
  latest : Option String := none

/-- One more commit that changes both files; an author or a date that is empty says nothing. -/
def CoChange.add (e : CoChange) (c : Commit) : CoChange where
  count := e.count + 1
  authors := if c.author.isEmpty then e.authors else e.authors.insert c.author
  latest := if c.date.isEmpty then e.latest else laterDate e.latest c.date

/-- What commits say: the number of changes to each file, and what is said of each pair of files. -/
structure Tally where
  changes : List (String × Nat) := []
  pairs : List ((String × String) × CoChange) := []

/-- One more commit, for each file that it changes and each two of them. -/
def Tally.add (t : Tally) (c : Commit) : Tally where
  changes := (changedPaths c).foldl (fun counts path =>
    Keyed.modify path 0 (· + 1) counts) t.changes
  pairs := (laterPairs (changedPaths c)).foldl (fun pairs k =>
    Keyed.modify k {} (·.add c) pairs) t.pairs

/-- One more commit, which counts only if it is evidence. -/
def Tally.step (s : CouplingSettings) (t : Tally) (c : Commit) : Tally :=
  if isEvidence s (changedPaths c) then t.add c else t

/-- What the commits of a window say. -/
def Tally.ofCommits (s : CouplingSettings) (commits : List Commit) : Tally :=
  commits.foldl (Tally.step s) {}

/-- The number of changes to a file. -/
def Tally.changesTo (t : Tally) (path : String) : Nat := (t.changes.lookup path).getD 0

/-- The coupling of a pair of files, if there is enough evidence for it. The commits that change
both are among those that change one of them, so that nothing is lost where they are taken off. -/
def Tally.coupling? (s : CouplingSettings) (t : Tally) (k : String × String) (e : CoChange) :
    Option CouplingPair :=
  if (e.count : Int) < s.minCoChanges then none
  else
    let either := t.changesTo k.1 + t.changesTo k.2 - e.count
    let weight := if either = 0 then Binary64.zero else Binary64.ofRatio e.count either
    if weight.lt s.minStrength then none
    else
      some
        { first := k.1
          second := k.2
          weight
          coChanges := e.count
          authors := Text.sortedDistinct e.authors
          lastChanged := e.latest
          sources := ["commits"] }

/-- The pairs of files that change together, ranked. -/
def commitCouplings (s : CouplingSettings) (commits : List Commit) :
    Except Failure (List CouplingPair) := do
  let t := Tally.ofCommits s (← window s commits)
  return rank (t.pairs.filterMap fun entry => t.coupling? s entry.1 entry.2)

end Coupling
end CodeSurvey
