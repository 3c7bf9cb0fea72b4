/-
# Resolving relative imports

A specifier is relative when it is `.` or starts with `./` or `../`. It is resolved against the
known paths by a ladder of candidates: the path itself, the TypeScript file behind a JavaScript
extension, the path with each extension, and the index files of the directory it names. If no
candidate is known, the specifier's own segments decide: among the known paths that end with them,
with or without their extension, the shortest wins, and of equally short ones the first in order.
-/

import CodeSurvey.Path
import CodeSurvey.Text.Case

namespace CodeSurvey
namespace Resolve

open Text

/-- Whether a specifier names a file of the repository and not a package. -/
def isRelative (specifier : String) : Bool :=
  specifier == "." || "./".toList.isPrefixOf specifier.toList ||
    "../".toList.isPrefixOf specifier.toList

/-- The extensions tried, in order. -/
def extensions : List String :=
  [".js", ".ts", ".jsx", ".tsx", ".mjs", ".cjs", ".mts", ".cts", ".json", ".py"]

/-- The index files tried, in order. -/
def indexFiles : List String :=
  ((extensions.filter (· != ".py")).map fun e => "index" ++ e) ++ ["__init__.py"]

/-- The extensions of TypeScript that stand behind an extension of JavaScript. -/
def twins (extension : List Char) : List String :=
  match String.ofList extension with
  | ".js" => [".ts", ".tsx"]
  | ".jsx" => [".tsx"]
  | ".mjs" => [".mts"]
  | ".cjs" => [".cts"]
  | _ => []

/-- The path that a specifier names, seen from the importer; empty at the root. -/
def basePath (specifier importer : List Char) : List Char :=
  let base := Path.normalize (Path.join (Path.directory importer) specifier)
  if base == ['.'] then [] else base

/-- The candidates for a path that name a file by itself. -/
def fileCandidates (base : List Char) : List (List Char) :=
  let (stem, extension) := Path.splitExtension base
  base :: (twins (lower extension)).map (fun t => stem ++ t.toList) ++
    extensions.map fun e => base ++ e.toList

/-- The candidates for a path that are index files of a directory. -/
def indexCandidates (base : List Char) : List (List Char) :=
  indexFiles.map fun f => if base.isEmpty then f.toList else base ++ '/' :: f.toList

/-- The candidates for a path, in order. -/
def candidates (base : List Char) : List (List Char) :=
  (if base.isEmpty then [] else fileCandidates base) ++ indexCandidates base

/-- The segments of a specifier that name something. -/
def namedSegments (specifier : List Char) : List (List Char) :=
  (fields '/' specifier).filter fun s => !s.isEmpty && s != ['.'] && s != ['.', '.']

/-- Whether a path is a suffix or ends with it after a slash. -/
def endsAtSegment (tail path : List Char) : Bool := path == tail || ('/' :: tail).isSuffixOf path

/-- Whether a path, with or without its extension, ends with a suffix. -/
def matchesSuffix (tail path : List Char) : Bool :=
  endsAtSegment tail path || endsAtSegment tail (Path.splitExtension path).1

/-- Whether a path comes before another: the shorter one, or the first in order. -/
def precedes (a b : String) : Bool := a.length < b.length || (a.length == b.length && a < b)

/-- The path of a list before which no other comes. -/
def first? : List String → Option String
  | [] => none
  | p :: rest => some (rest.foldl (fun best q => if precedes q best then q else best) p)

theorem foldl_precedes_mem (best : String) (rest : List String) :
    rest.foldl (fun best q => if precedes q best then q else best) best ∈ best :: rest := by
  induction rest generalizing best with
  | nil => exact List.mem_cons_self ..
  | cons q rest ih =>
    rw [List.foldl_cons]
    rcases List.mem_cons.1 (ih (if precedes q best then q else best)) with h | h
    · rw [h]
      split
      · exact List.mem_cons_of_mem _ (List.mem_cons_self ..)
      · exact List.mem_cons_self ..
    · exact List.mem_cons_of_mem _ (List.mem_cons_of_mem _ h)

theorem first?_mem {p : String} {ps : List String} (h : first? ps = some p) : p ∈ ps := by
  cases ps with
  | nil => cases h
  | cons q rest =>
    rw [first?, Option.some.injEq] at h
    exact h ▸ foldl_precedes_mem q rest

/-- The known path that the segments of a specifier choose. -/
def suffixMatch? (specifier : List Char) (known : List String) : Option String :=
  let parts := namedSegments specifier
  if parts.isEmpty then none
  else first? (known.filter fun p => matchesSuffix (Path.joinWith '/' parts) p.toList)

/-- The known path that a specifier names, seen from the importer. -/
def resolve? (specifier importer : String) (known : List String) : Option String :=
  let ladder := (candidates (basePath specifier.toList importer.toList)).map String.ofList
  match ladder.find? known.contains with
  | some p => some p
  | none => suffixMatch? specifier.toList known

theorem suffixMatch?_mem {specifier : List Char} {known : List String} {p : String}
    (h : suffixMatch? specifier known = some p) : p ∈ known := by
  unfold suffixMatch? at h
  dsimp only at h
  split at h
  · cases h
  · exact (List.mem_filter.1 (first?_mem h)).1

/-- A specifier is only ever resolved to a known path. -/
theorem resolve?_mem {specifier importer : String} {known : List String} {p : String}
    (h : resolve? specifier importer known = some p) : p ∈ known := by
  unfold resolve? at h
  dsimp only at h
  split at h
  · rename_i q hq
    obtain rfl := Option.some.inj h
    exact List.contains_iff_mem.1 (List.find?_some hq)
  · exact suffixMatch?_mem h

end Resolve
end CodeSurvey
