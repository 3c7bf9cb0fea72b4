/-
# Complexity

The cyclomatic complexity of a tree is one more than the number of its nodes that branch, by the
rules of its grammar. Where there is no clean tree, the branching keywords of the text are counted
instead, up to a cap. The maintainability index is the classic one without its volume term, on a
scale from zero to one hundred:

  `(171 - 0.23 · complexity - 16.2 · ln lines) · 100 / 171`

with `lines` the logical lines: those that are neither blank nor nothing but a comment.
-/

import CodeSurvey.Number
import CodeSurvey.Number.Logarithm
import CodeSurvey.SyntaxTree
import CodeSurvey.Text.Lines

namespace CodeSurvey

open Text

/-- The kinds of nodes that branch, and the kinds that branch when their operator is logical. -/
structure BranchRules where
  branches : List String
  logicalNodes : List String := []
  logicalOperators : List String := []

namespace BranchRules

/-- The rules of JavaScript and TypeScript. -/
def ecmascript : BranchRules where
  branches :=
    ["if_statement", "for_statement", "for_in_statement", "while_statement", "do_statement",
      "switch_case", "catch_clause", "ternary_expression"]
  logicalNodes := ["binary_expression", "augmented_assignment_expression"]
  logicalOperators := ["&&", "||", "??", "&&=", "||=", "??="]

/-- The rules of Python. -/
def python : BranchRules where
  branches :=
    ["if_statement", "elif_clause", "for_statement", "while_statement", "except_clause",
      "except_group_clause", "conditional_expression", "boolean_operator", "case_clause",
      "for_in_clause", "if_clause"]

/-- The rules of a grammar. -/
def ofGrammar (grammar : String) : BranchRules := if grammar == "python" then python else ecmascript

/-- Whether a node branches. -/
def counts (r : BranchRules) (t : SyntaxTree) : Bool :=
  r.branches.contains t.kind ||
    (r.logicalNodes.contains t.kind &&
      (t.child? "operator").any fun o => r.logicalOperators.contains o.kind)

end BranchRules

/-- The cyclomatic complexity of a tree. -/
def cyclomaticComplexity (r : BranchRules) (t : SyntaxTree) : Nat := 1 + t.walk.countP r.counts

/-- The keywords that branch in most languages. -/
def branchKeywords : List String := ["if", "else", "for", "while", "switch", "case", "catch"]

/-- The most that keywords are counted to. -/
def keywordCap : Nat := 100

/-- One more than the number of branching keywords among the words of a text, up to the cap. -/
def keywordComplexity (cs : List Char) : Nat :=
  let words := fieldsBy (fun c => !isWord c) cs
  min keywordCap (1 + words.countP fun w => branchKeywords.contains (String.ofList w))

/-- The maintainability index before it is kept on its scale. -/
def rawMaintainability (complexity : Binary64) (lines : Nat) : Binary64 :=
  (Binary64.ofInt 171 - Binary64.ofDecimal false 23 (-2) * complexity -
    Binary64.ofDecimal false 162 (-1) * Binary64.logOf lines) * hundred / Binary64.ofInt 171

/-- The maintainability index, a whole number from zero to one hundred. -/
def maintainabilityIndex (complexity lines : Int) : Except Failure Int := do
  let raw := rawMaintainability (← (Amount.int complexity).toBinary64) (max lines 1).toNat
  if raw == .nan then return 100 else raw.clampPercent.roundToInt

/-- Whether a trimmed line is nothing but a comment. -/
def isComment (marks : List String) (line : List Char) : Bool :=
  marks.any fun m => m.toList.isPrefixOf line

/-- Whether a line counts. -/
def isLogicalLine (marks : List String) (line : List Char) : Bool :=
  let line := trim line
  !line.isEmpty && !isComment marks line

/-- The number of lines that are neither blank nor nothing but a comment. -/
def logicalLines (marks : List String) (cs : List Char) : Nat :=
  (lines cs).countP (isLogicalLine marks)

/-- The marks that begin or continue a comment in languages with braces. -/
def braceComments : List String := ["//", "/*", "*", "*/"]

/-- The marks of comments, by language. -/
def commentMarks (language : String) : List String :=
  if ["python", "shell", "ruby", "yaml", "toml", "dockerfile"].contains language then ["#"]
  else if ["javascript", "typescript", "java", "csharp", "c", "cpp", "go", "rust",
      "swift", "kotlin", "scss", "sass", "less", "stylus"].contains language then braceComments
  else if language == "php" then braceComments ++ ["#"]
  else if language == "css" then ["/*", "*", "*/"]
  else if language == "html" || language == "xml" then ["<!--"]
  else []

end CodeSurvey
