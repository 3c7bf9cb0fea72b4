/-
# Settings

The settings of a survey with their standard values: ceilings that bound the cost of a
run, thresholds of the coupling signals, the analyzers wanted (all when none is named),
and the paths to leave out.
-/

import CodeSurvey.Number.Decimal

namespace CodeSurvey

/-- Ceilings of a run. -/
structure Limits where
  maxFileSize : Int := 204800
  maxCommits : Int := 2000
  largeRepository : Int := 200
  fallbackSample : Int := 50
  fallbackEdges : Int := 20
  fallbackChain : Int := 10
  architectureTimeout : Binary64 := Binary64.ofInt 45
  qualityBatch : Int := 25

/-- Thresholds and weights of the coupling signals. -/
structure CouplingSettings where
  windowDays : Int := 30
  maxCommits : Int := 500
  maxFanout : Int := 15
  minCoChanges : Int := 2
  minStrength : Binary64 := Binary64.ofDecimal false 25 (-2)
  maxPairs : Int := 150
  structuralFiles : Int := 500
  sparsePairs : Int := 5
  directoryWeight : Binary64 := Binary64.ofDecimal false 2 (-1)
  namingWeight : Binary64 := Binary64.ofDecimal false 5 (-1)
  indexWeight : Binary64 := Binary64.ofDecimal false 8 (-1)

/-- The settings of a survey. -/
structure Settings where
  limits : Limits := {}
  coupling : CouplingSettings := {}
  analyzers : List String := []
  excluded : List String := []
  maxWorkers : Int := 4

end CodeSurvey
