/-
# Coupling

Two files are coupled when something suggests that they change together. A signal is a list of
pairs with weights; signals are merged by adding up, for each unordered pair, all weights given for
it (exactly, and rounded once), its common changes, its authors and the kinds of evidence, and
keeping the latest of its dates. The merged pairs are ranked by weight, heavier ones first, then by
the names of their files.
-/

import CodeSurvey.Keyed
import CodeSurvey.Moment.Reader
import CodeSurvey.Settings
import CodeSurvey.Slice
import CodeSurvey.Text.Sorted
import CodeSurvey.Total

namespace CodeSurvey

/-- Two files, how strongly they are coupled, and the evidence for it. -/
structure CouplingPair where
  first : String
  second : String
  weight : Binary64
  coChanges : Int := 0
  authors : List String := []
  lastChanged : Option String := none
  sources : List String := []
  deriving DecidableEq

namespace Coupling

/-- Two names in order. -/
def orderedKey (a b : String) : String × String := if b < a then (b, a) else (a, b)

/-- Whether a key does not come after another. -/
def keyLe (k l : String × String) : Bool := k.1 < l.1 || (k.1 == l.1 && !(l.2 < k.2))

/-- The unordered pair of files, in order. -/
def key (p : CouplingPair) : String × String := (p.first, p.second)

/-- Whether a pair may stand before another: it is heavier, or as heavy and not later by name. -/
def ranksBefore (p q : CouplingPair) : Bool :=
  q.weight.lt p.weight || (!p.weight.lt q.weight && keyLe (key p) (key q))

/-- Pairs by rank. -/
def rank (ps : List CouplingPair) : List CouplingPair := ps.mergeSort ranksBefore

/-- The sum of weights, from the least to the greatest. -/
def totalWeight (ws : List Binary64) : Except Failure Binary64 :=
  (Binary64.sumInOrder (ws.mergeSort fun a b => !b.lt a)).mapError .sum

/-- One pair with all evidence that was given for its files. -/
def mergeEvidence (k : String × String) (ps : List CouplingPair) : Except Failure CouplingPair := do
  return {
    first := k.1
    second := k.2
    weight := ← totalWeight (ps.map (·.weight))
    coChanges := total (ps.map (·.coChanges))
    authors := Text.sortedDistinct (ps.flatMap (·.authors))
    lastChanged := latestDate (ps.filterMap (·.lastChanged))
    sources := Text.sortedDistinct (ps.flatMap (·.sources)) }

/-- The pairs by the unordered pair of their files, in order of first mention. -/
def groupByKey (ps : List CouplingPair) : List ((String × String) × List CouplingPair) :=
  ps.foldl (fun groups p => Keyed.modify (orderedKey p.first p.second) [] (· ++ [p]) groups) []

/-- The pairs of all signals merged and ranked, as many as the limit leaves. -/
def mergePairs (limit : Int) (ps : List CouplingPair) : Except Failure (List CouplingPair) := do
  let merged ← (groupByKey ps).mapM fun (k, evidence) => mergeEvidence k evidence
  return upTo limit (rank merged)

/-- Several signals merged into one ranked list. -/
def merge (s : CouplingSettings) (signals : List (List CouplingPair)) :
    Except Failure (List CouplingPair) := mergePairs s.maxPairs signals.flatten

/-- All pairs of an item and a later one. -/
def laterPairs {α : Type} : List α → List (α × α)
  | [] => []
  | x :: rest => rest.map (fun y => (x, y)) ++ laterPairs rest

end Coupling
end CodeSurvey
