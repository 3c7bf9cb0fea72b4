/-
# Ignore rules

A rule says which paths of a checkout are left out, or taken in again if it is negated.
Its pattern is a glob; a slash at its end restricts it to directories, and one at its
start is a mark of its own.

A rule that has such a mark, or a slash within, is held against the whole path, and any other one
against each segment of it. Of several rules that match a path the last one counts.
-/

import CodeSurvey.Glob
import CodeSurvey.Text.Lines

namespace CodeSurvey

/-- A rule; its glob has neither the slash at the end nor the one at the start. -/
structure IgnoreRule where
  glob : String
  onlyDirectories : Bool
  anchored : Bool
  negated : Bool
  hasSlash : Bool
  deriving DecidableEq, Repr

namespace IgnoreRule

/-- The rule of a pattern; a blank one gives none. -/
def ofPattern? (pattern : String) (negated : Bool) : Option IgnoreRule :=
  match Text.trim pattern.toList with
  | [] => none
  | cs =>
    let onlyDirectories := cs.getLast? == some '/'
    let cs := if onlyDirectories then cs.dropLast else cs
    let anchored := cs.head? == some '/'
    let cs := if anchored then cs.tail else cs
    some ⟨String.ofList cs, onlyDirectories, anchored, negated, cs.contains '/'⟩

/-- The rule of a line, in which an exclamation mark negates the pattern after it. Comments and
blank lines give none. -/
def ofLine? (line : List Char) : Option IgnoreRule :=
  match Text.trim line with
  | [] => none
  | '#' :: _ => none
  | '!' :: r => ofPattern? (String.ofList r) true
  | cs => ofPattern? (String.ofList cs) false

/-- The rules in a text. -/
def ofText (s : String) : List IgnoreRule := (Text.lines s.toList).filterMap ofLine?

/-- Whether a rule matches a path. -/
def isMatch (r : IgnoreRule) (path : String) (isDirectory : Bool) : Bool :=
  if r.glob.isEmpty || (r.onlyDirectories && !isDirectory) then false
  else if r.anchored || r.hasSlash then
    Glob.isMatch r.glob path ||
      (r.onlyDirectories && (r.glob.toList ++ ['/']).isPrefixOf path.toList)
  else (Text.fieldsOf '/' path).any (Glob.isMatch r.glob)

/-- Whether rules leave out a path, if it is to be left out (`ignored`) by the rules before them. -/
def decideFrom (ignored : Bool) (path : String) (isDirectory : Bool)
    (rules : List IgnoreRule) : Bool :=
  rules.foldl (fun ignored r => if r.isMatch path isDirectory then !r.negated else ignored) ignored

/-- Whether rules leave out a path. -/
def ignores (rules : List IgnoreRule) (path : String) (isDirectory : Bool) : Bool :=
  decideFrom false path isDirectory rules

end IgnoreRule
end CodeSurvey
