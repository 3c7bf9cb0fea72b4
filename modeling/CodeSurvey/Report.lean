/-
# Reports

The results of a survey as JSON values: every record is an object with one member a field, in the
order of the fields, so that a report lists the same names in the same order every time.
-/

import CodeSurvey.Survey

namespace CodeSurvey
namespace Report

/-- A text, or null. -/
def optionalText : Option String → Json
  | some s => .text s
  | none => .null

/-- A number, or null. -/
def optionalNumber : Option Nat → Json
  | some n => .int n
  | none => .null

/-- Texts in an array. -/
def texts (xs : List String) : Json := .array (xs.map .text)

/-- Items in an array, each written by `f`. -/
def list {α : Type} (f : α → Json) (xs : List α) : Json := .array (xs.map f)

/-- A warning. -/
def warning (w : Warning) : Json :=
  .object [("step", .text w.step), ("message", .text w.message),
    ("error_detail", optionalText w.detail)]

/-- The quality of a file. -/
def metric (m : QualityMetric) : Json :=
  .object
    [("path", .text m.path), ("complexity", .int m.complexity),
      ("maintainability", .int m.maintainability), ("lines_of_code", .int m.lines),
      ("fallback", .bool m.fallback)]

/-- A coupled pair of files. -/
def pair (p : CouplingPair) : Json :=
  .object
    [("file_a", .text p.first), ("file_b", .text p.second), ("weight", .real p.weight),
      ("co_changes", .int p.coChanges), ("authors", texts p.authors),
      ("last_changed", optionalText p.lastChanged), ("sources", texts p.sources)]

/-- A module. -/
def node (n : GraphNode) : Json :=
  .object
    [("id", .text n.id), ("name", .text n.name), ("module_type", .text n.role.word),
      ("layer", .text n.layer.word)]

/-- An edge between modules. -/
def edge (e : GraphEdge) : Json :=
  .object [("source", .text e.source), ("target", .text e.target), ("inferred", .bool e.inferred)]

/-- Texts by name. -/
def textsByName (ms : List (String × List String)) : Json :=
  .object (ms.map fun (k, v) => (k, texts v))

/-- A dependency graph. -/
def graph (g : DependencyGraph) : Json :=
  .object
    [("nodes", list node g.nodes), ("edges", list edge g.edges), ("fallback", .bool g.fallback),
      ("external_imports", textsByName g.externalImports), ("unresolved", textsByName g.unresolved)]

/-- A security issue. -/
def security (s : SecurityIssue) : Json :=
  .object
    [("kind", .text s.kind), ("severity", .text s.severity), ("path", .text s.path),
      ("line", .int s.line), ("description", .text s.description), ("cwe", optionalText s.cwe)]

/-- An item of technical debt. -/
def debt (d : DebtItem) : Json :=
  .object
    [("kind", .text d.kind), ("severity", .text d.severity), ("path", .text d.path),
      ("line", optionalNumber d.line), ("description", .text d.description),
      ("effort", .text d.effort)]

/-- A hotspot. -/
def hotspot (h : Hotspot) : Json :=
  .object
    [("path", .text h.path), ("complexity", .int h.complexity), ("changes", .int h.changes),
      ("score", .int h.score), ("risk_level", .text h.risk)]

/-- A key function. -/
def function (f : KeyFunction) : Json :=
  .object
    [("name", .text f.name), ("path", .text f.path), ("complexity", .int f.complexity),
      ("start_line", .int f.startLine), ("end_line", .int f.endLine)]

/-- An endpoint. -/
def endpoint (e : Endpoint) : Json :=
  .object
    [("method", .text e.method), ("route", .text e.route), ("path", .text e.path),
      ("line", .int e.line), ("handler", .text e.handler), ("framework", .text e.framework)]

/-- Declared dependencies. -/
def declared (d : Declared) : Json :=
  .object [("runtime", textsByName d.runtime), ("development", textsByName d.development)]

/-- A contributor. -/
def contributor (c : Contributor) : Json :=
  .object
    [("author", .text c.author), ("commits", .int c.commits),
      ("first_commit", optionalText c.first), ("last_commit", optionalText c.last)]

/-- The metrics of a repository, the shares of its languages written by `f`. -/
def metrics (f : List (String × Int) → Json) (m : Metrics) : Json :=
  .object
    [("avg_complexity", .real m.complexity), ("avg_maintainability", .real m.maintainability),
      ("file_count", .int m.files), ("analyzable_file_count", .int m.analyzable),
      ("files_with_metrics", .int m.measured), ("lines_of_code", .int m.lines),
      ("total_commits", .int m.commits), ("total_contributors", .int m.contributors),
      ("bus_factor", .int m.busFactor), ("test_coverage", .real m.coverage),
      ("language_distribution", f m.languages), ("repository_size", .int m.bytes),
      ("recent_activity", .int m.recentCommits), ("security_score", .int m.securityScore),
      ("technical_debt_score", .int m.debtScore), ("code_quality", .real m.score),
      ("dependency_edge_count", .int m.edges), ("fallback_architecture", .bool m.inferred)]

/-- A finding. -/
def finding : Finding → Json
  | .security s => security s
  | .debt d => debt d
  | .hotspot h => hotspot h
  | .function f => function f
  | .endpoint e => endpoint e
  | .other v => v

/-- A survey; the quality of files is written by `quality` and the shares of
languages by `languages`. -/
def survey (quality : List QualityMetric → Json) (languages : List (String × Int) → Json)
    (s : Survey) : Json :=
  .object
    [("dependency_graph", graph s.graph), ("quality_metrics", quality s.quality),
      ("temporal_coupling", list pair s.coupling), ("warnings", list warning s.warnings),
      ("derived_metrics", (s.metrics.map (metrics languages)).getD (.object [])),
      ("findings", .object (s.findings.map fun (name, fs) => (name, list finding fs))),
      ("contributors", list contributor s.contributors),
      ("declared_dependencies", declared s.declared), ("summary", optionalText s.summary)]

/-- Each metric under its path. -/
def metricsByPath (ms : List QualityMetric) : Json := .object (ms.map fun m => (m.path, metric m))

/-- Each number under its name. -/
def sharesByName (shares : List (String × Int)) : Json :=
  .object (shares.map fun (name, n) => (name, .int n))

end Report
end CodeSurvey
