/-
# Dependency manifests

A manifest lists the packages that a project needs: to run, and to be
developed. Five formats are read:

* `package.json`: the names under `dependencies` and `peerDependencies`, and
  under `devDependencies`;
* requirement lists: one requirement a line;
* `pyproject.toml`: the requirements of the project, of its optional and development groups, and the
  tables of names of its other tool; a name of both kinds is needed to run;
* `pom.xml`: group and artifact of every dependency in the namespace of the root;
* Gradle builds: the coordinates on the lines that start with a configuration.

How deep the values of a text may stand in one another depends on the readers (`Manifest.Readers`),
and so does what they say of a text that they refuse.
-/

import CodeSurvey.Failure
import CodeSurvey.Json.Reader
import CodeSurvey.Pattern
import CodeSurvey.Text.Case
import CodeSurvey.Text.Sorted
import CodeSurvey.Toml.Reader
import CodeSurvey.Xml.Reader

namespace CodeSurvey

/-- The packages that a manifest lists. -/
structure Listing where
  runtime : List String := []
  development : List String := []
  deriving DecidableEq, Repr

namespace Manifest

/-- The readers of the formats that are not the library's own: how many containers of JSON may stand
inside one another, which values of TOML can be read inside so many calls, and what is said of a
text that is no TOML or no XML. -/
structure Readers where
  jsonRoom : Nat := Json.usualRoom
  tomlFits : (calls : Nat) → List Char → Bool := Toml.usuallyFits
  tomlComplaint : String → String := fun _ => ""
  xmlComplaint : String → String := fun _ => ""

/-- The names under a member of a package description, in order. -/
def packageNames (key : String) (v : Json) : List String :=
  match v.member? key with
  | some (.object ms) => Text.sorted (ms.map Prod.fst)
  | _ => []

/-- The packages of a package description. -/
def ofPackageJson (content : String) (readers : Readers := {}) : Except Failure Listing :=
  match Json.read content readers.jsonRoom with
  | .error ⟨.longInteger n, _⟩ => .error (.integerTooLong n)
  | .error ⟨.tooDeep container, _⟩ => .error (.tooDeep (Json.whileDecoding container))
  | .error f => .error (.badManifest ("invalid JSON: " ++ f.message content.toList))
  | .ok (.object ms) =>
    let v := Json.object ms
    .ok ⟨packageNames "dependencies" v ++ packageNames "peerDependencies" v,
      packageNames "devDependencies" v⟩
  | .ok _ => .error (.badManifest "package.json must contain an object")

/-- A character that ends the name of a requirement. -/
def endsRequirement (c : Char) : Bool := "<>=!~;[@".toList.contains c || Text.isBlank c

/-- The name of a requirement, if it has one. -/
def requirementName? (requirement : List Char) : Option String :=
  let name := Text.trim ((Text.trim requirement).takeWhile (!endsRequirement ·))
  if name.isEmpty then none else some (String.ofList name)

/-- The name of the requirement on a line, if there is one: `#` starts a comment
and a hyphen an option. -/
def lineName? (line : List Char) : Option String :=
  let requirement := Text.trim (line.takeWhile (· != '#'))
  if requirement.isEmpty || requirement.head? == some '-' then none
  else requirementName? requirement

/-- The packages of a list of requirements. -/
def ofRequirements (content : String) : List String :=
  (Text.lines content.toList).filterMap lineName?

/-- Whether a name is that of the language itself. -/
def isPython (name : String) : Bool := Text.lowered name == "python"

/-- The packages that a list of requirements names. -/
def listedNames : Option Toml → List String
  | some (.array vs) =>
    (vs.filterMap fun v => match v with
      | .text s => requirementName? s.toList
      | _ => none).filter (!isPython ·)
  | _ => []

/-- The keys of the table in a member. -/
def keysAt (key : String) (v : Toml) : List String := ((v.tableAt key).members).map Prod.fst

/-- The packages of the project's own tables. -/
def projectListing (v : Toml) : Listing where
  runtime := listedNames ((v.tableAt "project").member? "dependencies")
  development :=
    (((v.tableAt "project").tableAt "optional-dependencies").members ++
      (v.tableAt "dependency-groups").members).flatMap
      fun (_, names) => listedNames (some names)

/-- The packages of the tables of names. -/
def poetryListing (v : Toml) : Listing :=
  let poetry := (v.tableAt "tool").tableAt "poetry"
  { runtime := (keysAt "dependencies" poetry).filter (!isPython ·)
    development :=
      keysAt "dev-dependencies" poetry ++
        (poetry.tableAt "group").members.flatMap fun (_, group) => keysAt "dependencies" group }

/-- The packages of a project description. -/
def ofPyproject (content : String) (readers : Readers := {}) : Except Failure Listing :=
  match Toml.read content readers.tomlFits with
  | .error (.longInteger n) => .error (.integerTooLong n)
  | .error .tooDeep => .error (.tooDeep "")
  | .error .malformed => .error (.badManifest ("invalid TOML" ++ readers.tomlComplaint content))
  | .ok v =>
    let project := projectListing v
    let poetry := poetryListing v
    let runtime := Text.sortedDistinct (project.runtime ++ poetry.runtime)
    .ok ⟨runtime, (Text.sortedDistinct (project.development ++ poetry.development)).filter
      (!runtime.contains ·)⟩

/-- The group and artifact of a dependency, if both are given. -/
def coordinate? (space : Option String) (dependency : Xml.Element) : Option String :=
  let group := dependency.childText ⟨space, "groupId"⟩
  let artifact := dependency.childText ⟨space, "artifactId"⟩
  if group.isEmpty || artifact.isEmpty then none else some (group ++ ":" ++ artifact)

/-- The namespace in which dependencies are looked for: that of the root, of one with several lines
only what stands on the first line before its last closing brace. -/
def dependencySpace? (root : Xml.Element) : Option String :=
  root.name.space.bind fun s =>
    let line := (s.toList ++ ['\x7d']).takeWhile (· != '\n')
    let head := ((line.reverse.dropWhile (· != '\x7d')).drop 1).reverse
    if head.isEmpty then none else some (String.ofList head)

/-- The packages of a project object model. -/
def ofPom (content : String) (readers : Readers := {}) : Except Failure (List String) :=
  match Xml.read content with
  | none => .error (.badManifest ("invalid XML" ++ readers.xmlComplaint content))
  | some root =>
    let space := dependencySpace? root
    .ok (Text.sortedDistinct ((root.named ⟨space, "dependency"⟩).filterMap (coordinate? space)))

open Pattern in
/-- A coordinate in quotes: a group and an artifact, captured, and a version or none. -/
def gradleCoordinate : Pattern :=
  let part := some1 (char fun c => Text.isWord c || c == '-' || c == '.')
  all [char isPlainQuote, capture 1 (all [part, one ':', part]), optional (seq (one ':') part),
    char isPlainQuote]

/-- The configurations of packages needed to run. -/
def gradleRuntime : List String := ["implementation", "api", "compile", "runtimeOnly"]

/-- The configurations of packages needed to develop. -/
def gradleDevelopment : List String := ["testImplementation", "testRuntimeOnly", "testCompile"]

/-- Whether a line starts with one of some words. -/
def startsWithAny (words : List String) (line : List Char) : Bool :=
  words.any fun w => w.toList.isPrefixOf line

/-- The lines of a Gradle build that name a coordinate, each with it. -/
def gradleLines (content : String) : List (List Char × String) :=
  (Text.lines content.toList).filterMap fun l =>
    let l := Text.trim l
    if "//".toList.isPrefixOf l then none
    else
      (gradleCoordinate.search l).bind fun found =>
        (found.stop.group? 1).map fun name => (l, String.ofList name)

/-- The packages of a Gradle build. -/
def ofGradle (content : String) : Listing :=
  let lines := gradleLines content
  let (development, others) := lines.partition fun (l, _) => startsWithAny gradleDevelopment l
  { runtime :=
      Text.sortedDistinct ((others.filter fun (l, _) => startsWithAny gradleRuntime l).map Prod.snd)
    development := Text.sortedDistinct (development.map Prod.snd) }

end Manifest
end CodeSurvey
