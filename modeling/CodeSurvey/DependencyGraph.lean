/-
# Dependency graphs

The modules of a repository and who imports whom. An edge is either evidence, an import that was
resolved, or inferred; a graph whose edges are inferred is marked as a fallback. Imports of packages
and imports that lead nowhere are kept by file.
-/

import CodeSurvey.Role

namespace CodeSurvey

/-- A module. -/
structure GraphNode where
  id : String
  name : String
  role : Role
  layer : Layer
  deriving DecidableEq, Repr

/-- The source imports the target. -/
structure GraphEdge where
  source : String
  target : String
  inferred : Bool := false
  deriving DecidableEq, Repr

/-- Modules, their imports, and what the imports of each file name besides modules. -/
structure DependencyGraph where
  nodes : List GraphNode := []
  edges : List GraphEdge := []
  fallback : Bool := false
  externalImports : List (String × List String) := []
  unresolved : List (String × List String) := []
  deriving DecidableEq, Repr

end CodeSurvey
