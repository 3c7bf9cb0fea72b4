/-
# Building dependency graphs

The analyzable files are the nodes, in order. Each parseable file's imports are followed: a package
is external, a relative specifier leads to a node or is unresolved, and an edge is kept once, never
from a file to itself. Where no import leads anywhere, and where a repository is too large or its
analysis fails, edges are inferred: pages to components, components to services, components to
hooks, and without any of these a chain of neighbours.

Before each file the deadline may stop the build; then nothing was recorded
but notes and files done.
-/

import CodeSurvey.Deadline
import CodeSurvey.DependencyGraph
import CodeSurvey.DependencyGraph.Resolve
import CodeSurvey.Import.Scan
import CodeSurvey.Journal
import CodeSurvey.Keyed
import CodeSurvey.Repository
import CodeSurvey.Settings
import CodeSurvey.Slice

namespace CodeSurvey
namespace GraphBuild

/-- The step that warnings of this stage name. -/
def step : String := "architecture"

/-- The node of a path. -/
def nodeOf (path : String) : GraphNode :=
  let role := roleOf path
  ⟨path, Path.nameOf path, role, layerOf path role⟩

/-- The roles that inferred edges join, in order. -/
def inferredPatterns : List (Role × Role) :=
  [(.page, .component), (.component, .service), (.component, .hook)]

/-- The nodes by role, in order of first mention. -/
def byRole (nodes : List GraphNode) : List (Role × List GraphNode) :=
  nodes.foldl (fun groups n => Keyed.modify n.role [] (· ++ [n]) groups) []

/-- The edges after a source was joined to some targets in turn. At the cap the rest of
the targets is left out. -/
def joinAll (cap : Int) (source : GraphNode) :
    (edges : List GraphEdge) → (targets : List GraphNode) → List GraphEdge
  | edges, [] => edges
  | edges, t :: rest =>
    if cap ≤ edges.length then edges
    else joinAll cap source (edges ++ [⟨source.id, t.id, true⟩]) rest

/-- The edges after the nodes of one role were joined to those of another. Each source is
visited, also at the cap. -/
def joinRoles (cap : Int) (groups : List (Role × List GraphNode)) (edges : List GraphEdge)
    (pattern : Role × Role) : List GraphEdge :=
  let ofRole (role : Role) : List GraphNode := (groups.lookup role).getD []
  (ofRole pattern.1).foldl (fun edges s => joinAll cap s edges (ofRole pattern.2)) edges

/-- The edges that the patterns infer, in order, up to a cap. -/
def patternLinks (cap : Int) (nodes : List GraphNode) : List GraphEdge :=
  inferredPatterns.foldl (joinRoles cap (byRole nodes)) []

/-- The chain through the nodes. -/
def chainEdges (nodes : List GraphNode) : List GraphEdge :=
  nodes.zipWith (fun a b => ⟨a.id, b.id, true⟩) nodes.tail

/-- The inferred edges of some nodes, within the limits. -/
def fallbackLinks (l : Limits) (nodes : List GraphNode) : List GraphEdge :=
  let edges := patternLinks l.fallbackEdges nodes
  if edges.isEmpty then (chainEdges nodes).take l.fallbackChain.toNat else edges

/-- The analyzable files of a list. -/
def analyzable (c : Classification) (files : List SourceFile) : List SourceFile :=
  files.filter fun f => c.isAnalyzable f.path

/-- A graph of inferred edges over a sample of the files, with one warning that gives the reason. -/
def buildFallback (c : Classification) (l : Limits) (files : List SourceFile) (reason : String)
    (detail : Option String) : Recorded DependencyGraph := do
  let nodes := (upTo l.fallbackSample (analyzable c files)).map fun f => nodeOf f.path
  let edges := fallbackLinks l nodes
  warn step reason detail
  inform ("Fallback architecture: " ++ toString nodes.length ++ " nodes, " ++
    toString edges.length ++
    " inferred edges")
  return { nodes, edges, fallback := true }

/-- What the imports followed so far have given. -/
structure Links where
  edges : List GraphEdge := []
  external : List (String × List String) := []
  unresolved : List (String × List String) := []

/-- The links after one more import of a file. -/
def Links.follow (known : List String) (path : String) (l : Links) (specifier : String) : Links :=
  if !Resolve.isRelative specifier then
    { l with external := Keyed.modify path [] (· ++ [specifier]) l.external }
  else
    match Resolve.resolve? specifier path known with
    | none => { l with unresolved := Keyed.modify path [] (· ++ [specifier]) l.unresolved }
    | some target =>
      if target == path || l.edges.contains ⟨path, target, false⟩ then l
      else { l with edges := l.edges ++ [⟨path, target, false⟩] }

/-- The imports of a file, none for one that is not parseable. -/
def specifiersOf (c : Classification) (scan : Scanner) (f : SourceFile) :
    Except Failure (List String) :=
  if c.isParseable f.path then scan f.path f.content else .ok []

/-- The links after all imports of a file. -/
def Links.followFile (known : List String) (path : String) (l : Links)
    (specifiers : List String) : Links :=
  specifiers.foldl (Links.follow known path) l

/-- Asks the deadline, if there is one, whether to go on, and gives it back with the
clock after the question. -/
def askDeadline : Option (Deadline × Clock) → Except Failure (Option (Deadline × Clock))
  | none => .ok none
  | some (d, clock) =>
    let (answer, d, clock) := d.check clock
    answer.map fun _ => some (d, clock)

/-- Follows the imports of the files that are left, `done` of `total` being followed already, asking
the deadline before each. -/
def followAll (c : Classification) (scan : Scanner) (known : List String) (total : Nat) :
    (watch : Option (Deadline × Clock)) → (done : Nat) → Links → List SourceFile → Attempt Links
  | _, _, links, [] => pure links
  | watch, done, links, f :: rest => do
    let watch ← Attempt.ofOutcome (askDeadline watch)
    let specifiers ← Attempt.ofOutcome (specifiersOf c scan f)
    Recorded.tell (.advance (done + 1) total)
    followAll c scan known total watch (done + 1) (links.followFile known f.path specifiers) rest

/-- The graph that nodes and the links between them make; where nothing is
linked, edges are inferred. -/
def Links.graph (l : Limits) (nodes : List GraphNode) (links : Links) : DependencyGraph :=
  let fallback := links.edges.isEmpty && 2 ≤ nodes.length
  { nodes
    edges := if fallback then fallbackLinks l nodes else links.edges
    fallback
    externalImports := links.external
    unresolved := links.unresolved }

/-- The reason given for a repository that is too large. -/
def tooLarge (count : Nat) (threshold : Int) : String :=
  "Repository has " ++ toString count ++ " analyzable files (threshold " ++ toString threshold ++
    "); using fallback architecture"

/-- The dependency graph of some files whose imports a scanner gives. -/
def buildWith (c : Classification) (scan : Scanner) (l : Limits) (watch : Option (Deadline × Clock))
    (files : List SourceFile) : Attempt DependencyGraph := do
  let chosen := analyzable c files
  if l.largeRepository < chosen.length then
    (buildFallback c l chosen (tooLarge chosen.length l.largeRepository) none : Recorded _)
  else
    inform ("Building dependency graph for " ++ toString chosen.length ++ " files")
    let nodes := chosen.map fun f => nodeOf f.path
    let links ← followAll c scan (nodes.map (·.id)) chosen.length watch 0 {} chosen
    let graph := links.graph l nodes
    if graph.fallback then
      warn step "No internal imports resolved; using inferred links between modules"
    inform ("Dependency graph: " ++ toString nodes.length ++ " nodes, " ++
      toString graph.edges.length ++ " edges" ++ (if graph.fallback then " (inferred)" else ""))
    return graph

/-- The dependency graph of some files. -/
def build (c : Classification) (p : Parser) (l : Limits) (watch : Option (Deadline × Clock))
    (files : List SourceFile) : Attempt DependencyGraph := buildWith c (scanImports p) l watch files

end GraphBuild
end CodeSurvey
