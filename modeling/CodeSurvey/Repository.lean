/-
# Repositories

The snapshot of a repository: its files with their text where it was read, its commits, newest or
not, and what is known about it otherwise. Nothing here is checked; `CodeSurvey.Validation` says
which snapshots can be surveyed.
-/

import CodeSurvey.Failure

namespace CodeSurvey

/-- A file of a snapshot. A size of zero means that none was recorded. The `halves` are the places
of its text at which half of a surrogate pair stands alone; the text holds stand-ins for them
(`CodeSurvey.Utf8.standIn`). A text that was read from a file has none. -/
structure SourceFile where
  path : String
  content : Option String := none
  size : Int := 0
  language : Option String := none
  halves : List Nat := []
  deriving DecidableEq

/-- The text of a file, empty when none was read. -/
def SourceFile.text (f : SourceFile) : String := f.content.getD ""

/-- Whether a file has text. -/
def SourceFile.hasText (f : SourceFile) : Bool := !f.text.isEmpty

/-- Why the text of a file has no UTF-8 form, if it has none. -/
def SourceFile.encodeError? (f : SourceFile) : Option Utf8.EncodeError :=
  f.content.bind fun s => Utf8.encodeError? s f.halves

/-- Text has a UTF-8 form where no half of a surrogate pair stands alone in it. -/
theorem SourceFile.encodeError?_eq_none_iff {f : SourceFile} :
    f.encodeError? = none ↔ f.content = none ∨ f.halves = [] := by
  rw [encodeError?]
  cases f.content <;> cases f.halves <;> simp [Utf8.encodeError?]

/-- The text of a file must have a UTF-8 form. -/
def SourceFile.checkEncodable (f : SourceFile) : Except Failure Unit :=
  match f.encodeError? with
  | some e => .error (.notEncodable e)
  | none => .ok ()

/-- A commit and the paths it changed. -/
structure Commit where
  sha : String := ""
  author : String := ""
  date : String := ""
  message : String := ""
  changed : List String := []
  deriving DecidableEq

/-- A snapshot of a repository. -/
structure Repository where
  files : List SourceFile
  commits : List Commit := []
  defaultBranch : String := "main"
  metadata : List (String × Json) := []

/-- A value of the metadata, null when it is missing. -/
def Repository.meta (r : Repository) (name : String) : Json := (r.metadata.lookup name).getD .null

end CodeSurvey
