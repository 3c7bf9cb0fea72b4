/-
# Analyzers

An analyzer reads the files and commits of a survey, and those of the second phase also the results
of the stages before, and reports findings under its name. Five analyzers come with the library;
plug-ins offer more. `discover` takes, in order and each name once, the analyzers that are wanted;
every plug-in must load, wanted or not, and every name wanted must be found.
-/

import CodeSurvey.DependencyGraph
import CodeSurvey.Finding.Debt
import CodeSurvey.Finding.Endpoints
import CodeSurvey.Finding.Hotspots
import CodeSurvey.Finding.KeyFunctions
import CodeSurvey.Finding.Security
import CodeSurvey.Coupling
import CodeSurvey.Text.Case

namespace CodeSurvey

/-- What an analyzer may read. The files are the analyzable ones, the commits newest first. -/
structure AnalyzerContext where
  classification : Classification
  parser : Parser
  files : List SourceFile
  commits : List Commit := []
  quality : List QualityMetric := []
  graph : DependencyGraph := {}
  coupling : List CouplingPair := []

/-- An analyzer: the name of its findings, the phase in which it runs, whether it applies, and what
it finds. Either question may fail. -/
structure Analyzer where
  name : String
  phase : Int := 2
  supports : AnalyzerContext → Except Failure Bool
  find : AnalyzerContext → Except Failure (List Finding)

namespace Analyzer

/-- Whether some file has text. -/
def anyText (x : AnalyzerContext) : Bool := x.files.any (·.hasText)

/-- Finds security issues. -/
def security (limit : Int := 500) : Analyzer where
  name := "security"
  phase := 1
  supports x := .ok (anyText x)
  find x := .ok ((Security.issues limit x.files).map .security)

/-- Finds hotspots. -/
def hotspots (o : Hotspots.Options := {}) : Analyzer where
  name := "hotspots"
  supports x := .ok (!x.commits.isEmpty && !x.quality.isEmpty)
  find x := .ok ((Hotspots.spots o x.commits x.quality).map .hotspot)

/-- Finds technical debt. -/
def technicalDebt (o : Debt.Options := {}) : Analyzer where
  name := "technical_debt"
  supports x := .ok !x.files.isEmpty
  find x := .ok ((Debt.items o x.files x.quality).map .debt)

/-- Finds key functions. -/
def keyFunctions (o : KeyFunctions.Options := {}) : Analyzer where
  name := "key_functions"
  supports x := .ok (x.files.any fun f => x.classification.isParseable f.path)
  find x := return (← KeyFunctions.functions x.classification x.parser o x.files).map .function

/-- Finds endpoints. -/
def endpoints (limit : Int := 500) : Analyzer where
  name := "api_endpoints"
  phase := 1
  supports x := .ok (anyText x)
  find x := .ok ((Endpoints.endpoints limit x.files).map .endpoint)

/-- The analyzers of the library, in order. -/
def builtIn : List Analyzer := [security, hotspots, technicalDebt, keyFunctions, endpoints]

/-- What an analyzer finds where it applies, nothing elsewhere. -/
def findings (a : Analyzer) (x : AnalyzerContext) : Except Failure (List Finding) := do
  if ← a.supports x then a.find x else return []

/-- What a plug-in gives when it is loaded. -/
inductive Offer
  | analyzer (a : Analyzer)
  | somethingElse
  | nothing (reason : String)

/-- A plug-in: its name and what it gives. -/
structure Plugin where
  name : String
  offer : Offer

/-- The analyzers found so far, and the lower-case names they were found under. -/
structure Found where
  analyzers : List Analyzer := []
  names : List String := []

/-- Whether an analyzer of this name is still to be added. -/
def Found.lacks (f : Found) (wanted : Option (List String)) (name : String) : Bool :=
  wanted.all (·.contains name) && !f.names.contains name

/-- The analyzers with one more, which takes the name it is found under if it has none. -/
def Found.add (f : Found) (name : String) (a : Analyzer) : Found :=
  ⟨f.analyzers ++ [if a.name.isEmpty then { a with name } else a], name :: f.names⟩

/-- The analyzers after one more plug-in. -/
def Found.load (wanted : Option (List String)) (f : Found) (p : Plugin) : Except Failure Found :=
  let name := Text.lowered p.name
  match p.offer with
  | .nothing reason => .error (.unloadableAnalyzer p.name reason)
  | .somethingElse => if f.lacks wanted name then .error .notAnAnalyzer else .ok f
  | .analyzer a => .ok (if f.lacks wanted name then f.add name a else f)

/-- The analyzers of the library that are wanted. -/
def Found.ofBuiltIn (wanted : Option (List String)) : Found :=
  builtIn.foldl (fun f a => if f.lacks wanted a.name then f.add a.name a else f) {}

/-- The analyzers of the library and of the plug-ins; only those named, in any
case, if names are given. -/
def discover (enabled : Option (List String)) (plugins : List Plugin) :
    Except Failure (List Analyzer) := do
  let wanted := enabled.map (·.map Text.lowered)
  let found ← plugins.foldlM (Found.load wanted) (Found.ofBuiltIn wanted)
  let missing := (wanted.getD []).filter (!found.names.contains ·)
  if missing.isEmpty then return found.analyzers
  else throw (.unknownAnalyzers (Text.sortedDistinct missing))

/-- The findings in a value that an analyzer from outside gives: the items of a list, the names in
an object, the characters of a text. -/
def findingsIn : Json → Except Failure (List Finding)
  | .array items => .ok (items.map .other)
  | .object ms => .ok (ms.map fun (k, _) => .other (.text k))
  | .text s => .ok (s.toList.map fun c => .other (.text (String.singleton c)))
  | .null => .error (.notIterable "NoneType")
  | .bool _ => .error (.notIterable "bool")
  | .int _ => .error (.notIterable "int")
  | .real _ => .error (.notIterable "float")

end Analyzer
end CodeSurvey
