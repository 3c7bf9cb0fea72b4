/-
# Security issues

Lines that name keys or passwords, evaluate text, insert raw markup, or leave work to be done.
-/

import CodeSurvey.Finding
import CodeSurvey.Finding.LinePattern

namespace CodeSurvey
namespace Security

open Pattern

/-- A text in quotes; nothing of it is captured. -/
def quotedValue : Pattern :=
  all [char isQuote, some1 (char fun c => !isQuote c), char isQuote]

/-- The patterns looked for. -/
def patterns : List LinePattern :=
  [{ pattern := word "AWS_ACCESS_KEY_ID", kind := "secret", severity := "critical",
     cwe := "CWE-798" },
    { pattern := word "private_key", kind := "secret", severity := "critical", cwe := "CWE-798" },
    { pattern := word "dangerouslySetInnerHTML", kind := "vulnerability", severity := "high",
      cwe := "CWE-79" },
    { pattern := all [wordEdge, word "eval", blanks, one '('], kind := "vulnerability",
      severity := "high", cwe := "CWE-95" },
    { pattern := all [anyCase "password", blanks, char fun c => c == '=' || c == ':', blanks,
      quotedValue], kind := "secret", severity := "high", cwe := "CWE-259" },
    { pattern := all [wordEdge, words ["TODO", "FIXME"], one ':'], kind := "configuration",
      severity := "low", cwe := "CWE-546" }]

/-- The issue that a find is. -/
def issueOf (f : LineFind LinePattern) : SecurityIssue where
  kind := f.pattern.kind
  severity := f.pattern.severity
  path := f.file.path
  line := f.number
  description := "Potential " ++ f.pattern.kind ++ " found: " ++ quotedLine f.line
  cwe := f.pattern.cwe

/-- The issues of some files; the search ends with the issue that reaches the limit, so that a limit
below one still lets one issue through. -/
def issues (limit : Int) (files : List SourceFile) : List SecurityIssue :=
  ((scanLines id patterns files).map issueOf).take (max 1 limit).toNat

end Security
end CodeSurvey
