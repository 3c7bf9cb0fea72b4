/-
# Paths with slashes

A path is a text whose segments stand between slashes. Its name is the last segment, its directory
what stands before the name without the slashes that end it (unless it is nothing but slashes).

`normalize` resolves a path lexically: empty and `.` segments vanish, a `..` takes back the segment
before it, and what cannot be taken back stays in front of a relative path and vanishes from an
absolute one. A path that comes out empty is `.`.
-/

import CodeSurvey.Text.Lines

namespace CodeSurvey
namespace Path

open Text

/-- The part of a path up to and including its last slash. -/
def upToName (cs : List Char) : List Char := dropEndWhile (· != '/') cs

/-- The last segment. -/
def name (cs : List Char) : List Char := (cs.reverse.takeWhile (· != '/')).reverse

/-- A path is what stands before its name, and its name. -/
theorem upToName_append_name (cs : List Char) : upToName cs ++ name cs = cs := by
  unfold upToName name dropEndWhile
  rw [← List.reverse_append, List.takeWhile_append_dropWhile, List.reverse_reverse]

/-- What stands before the name, without the slashes at its end unless there is nothing else. -/
def directory (cs : List Char) : List Char :=
  let head := upToName cs
  if head.all (· == '/') then head else dropEndWhile (· == '/') head

/-- A name cut before its last dot, if a character other than a dot stands before that dot. -/
def cutExtension (cs : List Char) : Option (List Char × List Char) :=
  let after := cs.reverse.takeWhile (· != '.')
  let before := cs.reverse.dropWhile (· != '.')
  match before with
  | [] => none
  | dot :: stem => if stem.all (· == '.') then none else some (stem.reverse, dot :: after.reverse)

/-- The path without its final extension, and the extension with its dot. -/
def splitExtension (cs : List Char) : List Char × List Char :=
  match cutExtension (name cs) with
  | some (stem, extension) => (upToName cs ++ stem, extension)
  | none => (cs, [])

/-- The second path seen from the first: an absolute one replaces it. -/
def join (a b : List Char) : List Char :=
  if b.head? == some '/' then b
  else if a.isEmpty || a.getLast? == some '/' then a ++ b
  else a ++ '/' :: b

/-- The segments kept so far, the last first, after one more segment. -/
def pushSegment (absolute : Bool) (kept : List (List Char)) (segment : List Char) :
    List (List Char) :=
  if segment.isEmpty || segment == ['.'] then kept
  else if segment != ['.', '.'] then segment :: kept
  else
    match kept with
    | [] => if absolute then [] else [segment]
    | last :: rest => if last == ['.', '.'] then segment :: kept else rest

/-- Texts with a separator between them. -/
def joinWith (sep : Char) : List (List Char) → List Char
  | [] => []
  | [x] => x
  | x :: y :: rest => x ++ sep :: joinWith sep (y :: rest)

/-- The slashes that a normalised path starts with: two stay two, more become one. -/
def rootSlashes : List Char → List Char
  | '/' :: '/' :: '/' :: _ => ['/']
  | '/' :: '/' :: _ => ['/', '/']
  | '/' :: _ => ['/']
  | _ => []

/-- The path resolved lexically. -/
def normalize (cs : List Char) : List Char :=
  let root := rootSlashes cs
  let kept := (fields '/' cs).foldl (pushSegment !root.isEmpty) []
  let path := root ++ joinWith '/' kept.reverse
  if path.isEmpty then ['.'] else path

/-- The path with slashes for backslashes. -/
def forward (cs : List Char) : List Char := cs.map fun c => if c == '\\' then '/' else c

/-- The path without the marks `./` at its start. -/
def dropHere : List Char → List Char
  | '.' :: '/' :: r => dropHere r
  | cs => cs

/-- The path of a file in a snapshot as it is compared: with slashes, without blanks around it,
without the marks `./` and then without the slashes at its start. -/
def tidy (cs : List Char) : List Char := (dropHere (trim (forward cs))).dropWhile (· == '/')

/-- The tidy path of a string. -/
def tidied (s : String) : String := String.ofList (tidy s.toList)

/-- The path without what does not matter for where it leads: empty and `.` segments. -/
def compact (cs : List Char) : List Char :=
  let path := rootSlashes cs ++ joinWith '/' ((fields '/' cs).filter fun s =>
    !s.isEmpty && s != ['.'])
  if path.isEmpty then ['.'] else path

/-- The segments of a path that are not empty. -/
def segments (s : String) : List String := (fieldsOf '/' s).filter (!·.isEmpty)

/-- The last segment of a string. -/
def nameOf (s : String) : String := String.ofList (name s.toList)

/-- The directory of a string. -/
def directoryOf (s : String) : String := String.ofList (directory s.toList)

end Path
end CodeSurvey
