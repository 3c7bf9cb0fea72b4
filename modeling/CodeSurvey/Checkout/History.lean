/-
# The history of a checkout

The commits in the output of `git log`. A record starts with the character `\x1e`; its first line
holds the hash, the author, the date and the subject, with `\x1f` between them, and the lines after
it name the files that the commit changed. A record with fewer than three fields is passed over.
-/

import CodeSurvey.Repository
import CodeSurvey.Text.Lines

namespace CodeSurvey
namespace History

/-- The character before a record. -/
def recordMark : Char := '\x1e'

/-- The character between the fields of a record. -/
def fieldMark : Char := '\x1f'

/-- The arguments that ask for the log of so many commits. -/
def logArguments (limit : Int) : List String :=
  ["log", "--max-count=" ++ toString limit, "--no-merges", "--name-only", "--relative",
    "--pretty=format:" ++ String.ofList (recordMark :: "%H".toList ++ fieldMark :: "%an".toList ++
      fieldMark :: "%aI".toList ++ fieldMark :: "%s".toList)]

/-- The arguments that ask for the name of the branch. -/
def branchArguments : List String := ["rev-parse", "--abbrev-ref", "HEAD"]

/-- The arguments that ask for the address of the remote. -/
def remoteArguments : List String := ["config", "--get", "remote.origin.url"]

/-- The files named in the lines of a record. -/
def filesNamed (body : List Char) : List String :=
  ((Text.lines body).map Text.trim).filterMap fun l =>
    if l.isEmpty then none else some (String.ofList l)

/-- The commit of a record. -/
def commit? (entry : List Char) : Option Commit :=
  if (Text.trim entry).isEmpty then none
  else
    let (header, body) := Text.cutAt '\n' entry
    match (Text.fields fieldMark header).map String.ofList with
    | sha :: author :: date :: rest =>
      some ⟨sha, author, date, rest.headD "", filesNamed (body.getD [])⟩
    | _ => none

/-- The commits in a log. -/
def commits (log : String) : List Commit := (Text.fields recordMark log.toList).filterMap commit?

end History
end CodeSurvey
