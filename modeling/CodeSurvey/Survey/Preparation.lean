/-
# Preparing a snapshot

What the stages of a survey look at: files under tidy paths that are not excluded, without text that
is too large, and the latest commits with tidy paths.

A pair of carriage return and line feed in a text becomes a line feed. The size of a text is
measured before that. Text that is too large is left out of all files it occurs in, and one warning
tells of them. A text without a UTF-8 form has no size, so that the preparation fails at the first
file with one, unless the file is left out.
-/

import CodeSurvey.Glob
import CodeSurvey.Journal
import CodeSurvey.Moment.Reader
import CodeSurvey.Number
import CodeSurvey.Path
import CodeSurvey.Repository
import CodeSurvey.Slice

namespace CodeSurvey
namespace Preparation

/-- The step that warns. -/
def step : String := "files"

/-- No warning names more paths than this. -/
def pathsTold : Nat := 10

/-- Whether a file of this path is left out. -/
def isExcluded (globs : List String) (path : String) : Bool := globs.any (Glob.isMatch · path)

/-- Whether the text of a file is too large. -/
def isOversized (limit : Int) (f : SourceFile) : Bool :=
  match f.content with
  | none => false
  | some s => limit < s.utf8ByteSize

/-- A text with plain line ends. -/
def plainText (s : String) : String := String.ofList (Text.unifyLineEnds s.toList)

/-- A file as the stages see it. -/
def prepareFile (limit : Int) (f : SourceFile) : SourceFile :=
  { f with
    path := Path.tidied f.path
    content := if isOversized limit f then none else f.content.map plainText
    size := if f.size != 0 then f.size else f.text.utf8ByteSize }

/-- The files that are not excluded. -/
def included (globs : List String) (files : List SourceFile) : List SourceFile :=
  files.filter fun f => !isExcluded globs (Path.tidied f.path)

/-- Warns of the files whose text is too large; the limit has to be written for that. -/
def warnOversized (limit : Int) (paths : List String) : Attempt Unit := do
  if paths.isEmpty then return
  let written ← Attempt.ofOutcome (Numeral.written limit)
  warn step
    (toString paths.length ++ " files exceed the " ++ written ++
      " byte size limit; their content was skipped")
    (some (commaJoined (paths.take pathsTold)))

/-- The files as the stages see them. -/
def files (limit : Int) (globs : List String) (fs : List SourceFile) :
    Attempt (List SourceFile) := do
  let kept := included globs fs
  Attempt.ofOutcome (kept.forM SourceFile.checkEncodable)
  warnOversized limit ((kept.filter (isOversized limit)).map fun f => Path.tidied f.path)
  return kept.map (prepareFile limit)

/-- A commit as the stages see it. -/
def prepareCommit (c : Commit) : Commit :=
  { c with changed := (c.changed.map Path.tidied).filter (!·.isEmpty) }

/-- The commits as the stages see them, the latest first, as many as the limit leaves. -/
def commits (limit : Int) (cs : List Commit) : List Commit :=
  (upTo limit (latestFirst (·.date) cs)).map prepareCommit

end Preparation
end CodeSurvey
