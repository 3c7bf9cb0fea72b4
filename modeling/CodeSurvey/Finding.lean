/-
# Findings

What the analyzers of a survey report, by kind. An analyzer from outside may report any values.
-/

import CodeSurvey.Json

namespace CodeSurvey

/-- A line that looks like a leaked secret or an injection. -/
structure SecurityIssue where
  kind : String
  severity : String
  path : String
  line : Nat
  description : String
  cwe : Option String := none
  deriving DecidableEq, Repr

/-- Something that will be costly to change: a smell, a complex file, a duplicated block. -/
structure DebtItem where
  kind : String
  severity : String
  path : String
  line : Option Nat
  description : String
  effort : String := "medium"
  deriving DecidableEq, Repr

/-- A complex file that changes often. -/
structure Hotspot where
  path : String
  complexity : Int
  changes : Nat
  score : Int
  risk : String
  deriving DecidableEq, Repr

/-- A complex function. -/
structure KeyFunction where
  name : String
  path : String
  complexity : Nat
  startLine : Nat
  endLine : Nat
  deriving DecidableEq, Repr

/-- The number of lines of a function, the first and the last included. -/
def KeyFunction.lineSpan (f : KeyFunction) : Int := (f.endLine : Int) - f.startLine + 1

/-- A route of a web service: `route` is its address, `path` the file that declares it. -/
structure Endpoint where
  method : String
  route : String
  path : String
  line : Nat
  handler : String
  framework : String
  deriving DecidableEq, Repr

/-- A finding. -/
inductive Finding
  | security (issue : SecurityIssue)
  | debt (item : DebtItem)
  | hotspot (spot : Hotspot)
  | function (f : KeyFunction)
  | endpoint (e : Endpoint)
  | other (value : Json)

end CodeSurvey
