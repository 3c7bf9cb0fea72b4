/-
# Which snapshots can be surveyed

A snapshot must hold files, and their tidy paths must be distinct and not empty. Where the metadata
gives a full name or a URL, these must have the usual forms: `owner/name`, and a web address of a
host, an owner and a name. A line feed may end a full name; blanks may surround a URL.
-/

import CodeSurvey.Failure
import CodeSurvey.Path
import CodeSurvey.Pattern
import CodeSurvey.Repository
import CodeSurvey.Text.Sorted

namespace CodeSurvey
namespace Validation

open Pattern

/-- A character of an owner's or a repository's name. -/
def isNameChar (c : Char) : Bool := Text.isAlphanumericAscii c || c == '_' || c == '.' || c == '-'

/-- A name of an owner. -/
def ownerName : Pattern := some1 (char isNameChar)

/-- A full name. -/
def fullNameForm : Pattern := all [ownerName, one '/', ownerName, textEnd]

/-- The address of a repository. -/
def urlForm : Pattern :=
  all
    [word "http", optional (one 's'), word "://",
      some1 (char fun c => c != '/' && !Text.isBlank c), one '/', ownerName, one '/',
      fewest1 (char isNameChar), optional (word ".git"), optional (one '/'), textEnd]

/-- Whether a value of the metadata is missing or a text of which `p` holds. -/
def isAbsentOr (p : String → Bool) : Json → Bool
  | .null => true
  | .text s => p s
  | _ => false

/-- Whether a text is a full name. -/
def isFullName (s : String) : Bool := (fullNameForm.matchStart? s.toList).isSome

/-- Whether a text is the address of a repository. -/
def isUrl (s : String) : Bool := (urlForm.matchStart? (Text.trim s.toList)).isSome

/-- No failure tells of more repeated paths than this. -/
def repeatsTold : Nat := 5

/-- The paths that stand in a list more than once, in order. -/
def repeated (paths : List String) : List String :=
  Text.sortedDistinct (paths.filter fun p => 1 < paths.count p)

/-- The first fault of a snapshot. -/
def fault? (r : Repository) : Option Invalid :=
  let paths := r.files.map fun f => Path.tidied f.path
  if paths.isEmpty then some .noFiles
  else if paths.any (·.isEmpty) then some .emptyPath
  else if !(repeated paths).isEmpty then some (.duplicatePaths ((repeated paths).take repeatsTold))
  else if !isAbsentOr isFullName (r.meta "full_name") then some (.fullName (r.meta "full_name"))
  else if !isAbsentOr isUrl (r.meta "url") then some (.url (r.meta "url"))
  else none

end Validation

/-- Refuses a snapshot that cannot be surveyed; a value that is to be shown is written where there
is room for so many values inside one another. -/
def Repository.validate (r : Repository) (room : Nat := Json.usualRoom) : Except Failure Unit :=
  match Validation.fault? r with
  | none => .ok ()
  | some cause => .error (cause.failure room)

/-- A snapshot is accepted exactly if it has no fault, however much room there is for the
values that are shown. -/
theorem Repository.validate_eq_ok_iff_fault? {r : Repository} {room : Nat} :
    r.validate room = .ok () ↔ Validation.fault? r = none := by
  unfold validate
  cases Validation.fault? r <;> simp

end CodeSurvey
