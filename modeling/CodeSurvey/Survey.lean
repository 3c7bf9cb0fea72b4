/-
# Surveys

Everything that one run over a repository gives: the dependency graph, the quality of each file, the
coupled pairs, the findings by analyzer, who contributed, what is declared, the metrics unless they
failed, a summary if one was made, and the warnings in the order in which they were given. It also
keeps the prompt that a text generator was asked to answer, if there was a generator.
-/

import CodeSurvey.Analyzer
import CodeSurvey.Manifest.Declared
import CodeSurvey.Metrics

namespace CodeSurvey

/-- The result of a run. -/
structure Survey where
  graph : DependencyGraph
  quality : List QualityMetric
  coupling : List CouplingPair
  warnings : List Warning := []
  metrics : Option Metrics
  findings : List (String × List Finding)
  contributors : List Contributor
  declared : Declared
  summary : Option String
  asked : Option String := none

/-- The findings of an analyzer. -/
def Survey.findingsOf (s : Survey) (name : String) : List Finding :=
  (s.findings.lookup name).getD []

end CodeSurvey
