/-
# Declared dependencies

The packages that the manifests at the root of a repository list, by ecosystem. The manifests are
read in the order of their names; one that is refused leaves a warning and nothing else. In the end
the packages of an ecosystem stand in order, without regard to case, each once; the order of names
that differ only in case is that in which a set happens to list them.

Some texts are neither read nor refused: the whole stage fails at the first manifest with
an integer too long to convert, with values too deep inside one another, or, where XML is
read, without a UTF-8 form.
-/

import CodeSurvey.Journal
import CodeSurvey.Keyed
import CodeSurvey.Manifest
import CodeSurvey.Repository
import CodeSurvey.Total

namespace CodeSurvey

/-- Packages by ecosystem: those needed to run, and those needed to develop. -/
structure Declared where
  runtime : List (String × List String) := []
  development : List (String × List String) := []
  deriving DecidableEq, Repr

/-- The number of packages. -/
def Declared.total (d : Declared) : Nat :=
  CodeSurvey.total (d.runtime.map fun e => e.2.length) +
    CodeSurvey.total (d.development.map fun e => e.2.length)

namespace Declared

/-- The step that warnings of this stage name. -/
def step : String := "dependencies"

/-- The ecosystems of the manifests that are read. -/
def ecosystems : List (String × String) :=
  [("build.gradle", "maven"), ("build.gradle.kts", "maven"), ("package.json", "npm"),
    ("pom.xml", "maven"), ("pyproject.toml", "python"), ("requirements-dev.txt", "python"),
    ("requirements.txt", "python")]

/-- The packages that a manifest lists. -/
def listing (readers : Manifest.Readers) (path : String) (file : SourceFile) :
    Except Failure Listing :=
  match path with
  | "package.json" => Manifest.ofPackageJson file.text readers
  | "requirements.txt" => .ok { runtime := Manifest.ofRequirements file.text }
  | "requirements-dev.txt" => .ok { development := Manifest.ofRequirements file.text }
  | "pyproject.toml" => Manifest.ofPyproject file.text readers
  | "pom.xml" => do
    file.checkEncodable
    return { runtime := ← Manifest.ofPom file.text readers }
  | _ => .ok (Manifest.ofGradle file.text)

/-- The packages of an ecosystem with some more. -/
def extend (ecosystem : String) (names : List String) (ms : List (String × List String)) :
    List (String × List String) :=
  if names.isEmpty then ms else Keyed.modify ecosystem [] (· ++ names) ms

/-- The packages after those of one more manifest. -/
def add (d : Declared) (ecosystem : String) (l : Listing) : Declared :=
  ⟨extend ecosystem l.runtime d.runtime, extend ecosystem l.development d.development⟩

/-- The manifests of some files by path: of equal paths the last file, in the place of the first. -/
def manifests (files : List SourceFile) : List (String × SourceFile) :=
  Keyed.ofList <| files.filterMap fun f =>
    if (ecosystems.lookup f.path).isSome && f.content.isSome then some (f.path, f) else none

/-- The packages after reading one more manifest. -/
def read (readers : Manifest.Readers) (d : Declared) (path : String) (file : SourceFile) :
    Attempt Declared :=
  match listing readers path file with
  | .ok l => return d.add ((ecosystems.lookup path).getD "") l
  | .error (.badManifest reason) => do
    warn step ("Failed to parse " ++ path) reason
    return d
  | .error f => throw f

/-- Names in order without regard to case, each once. A set has no order of its own: `enumerate`
lists its members, and names that differ only in case stay in the order in which it lists them. -/
def arrangedBy (enumerate : List String → List String) (names : List String) : List String :=
  (enumerate names).mergeSort fun a b => !(Text.lowered b < Text.lowered a)

/-- The packages of each ecosystem in order. -/
def arrangeBy (enumerate : List String → List String) (d : Declared) : Declared :=
  let arrange (ms : List (String × List String)) :=
    ms.map fun (e, names) => (e, arrangedBy enumerate names)
  ⟨arrange d.runtime, arrange d.development⟩

/-- The packages that the manifests among some files declare, where `enumerate` lists
the members of a set. -/
def ofFilesBy (readers : Manifest.Readers) (enumerate : List String → List String)
    (files : List SourceFile) :
    Attempt Declared := do
  let given := manifests files
  if given.isEmpty then
    inform "No dependency manifests found"
    return {}
  let d : Declared ← (given.mergeSort fun a b => !(b.1 < a.1)).foldlM (fun (d : Declared) m =>
      read readers d m.1 m.2) {}
  let d := d.arrangeBy enumerate
  inform ("Declared dependencies: " ++ toString d.total ++ " across " ++ toString given.length ++
    " manifests")
  return d

/-- The packages that the manifests among some files declare; names that differ only in
case stand by code point. -/
def ofFiles (files : List SourceFile) (readers : Manifest.Readers := {}) : Attempt Declared :=
  ofFilesBy readers Text.sortedDistinct files

end Declared
end CodeSurvey
