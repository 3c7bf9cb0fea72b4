/-
# Checkouts

A repository as it lies in a directory, read into a snapshot: the files that are not left out, with
their text where it is UTF-8 and not too large, and what `git` tells about the history, the branch
and the remote. Where `git` does not answer, the snapshot has no history.

A workplace is all that a run can see: the files, the directory that it works in,
`git`, and the reader of YAML.
-/

import CodeSurvey.Checkout.History
import CodeSurvey.Checkout.Remote
import CodeSurvey.Checkout.Tree
import CodeSurvey.Journal
import CodeSurvey.Path
import CodeSurvey.Settings.Reader
import CodeSurvey.Yaml.Reader

namespace CodeSurvey

/-- What comes of asking `git`. -/
inductive GitReply
  | notInstalled
  | failed (reason : String)
  | output (text : String)

/-- The answers of `git` to its arguments, in some directory. -/
abbrev Git := List String → GitReply

/-- The output for some arguments, if there is one. -/
def Git.ask (git : Git) (arguments : List String) : Recorded (Option String) := do
  match git arguments with
  | .output text => return some text
  | .notInstalled =>
    inform "git executable not found; continuing without history"
    return none
  | .failed reason =>
    inform ("git " ++ arguments.headD "" ++ " failed: " ++ reason)
    return none

/-- All files, the path of the directory that a run works in, `git`, and the reader of YAML. -/
structure Workplace where
  here : String
  root : Tree
  git : Git
  yaml : Yaml.Loader := Yaml.load

/-- A directory with a repository. -/
structure Checkout where
  path : String
  entries : List Tree

/-- The text of some bytes, with line feeds for all line ends. -/
def textOf (bytes : List UInt8) : Except Failure String :=
  match Utf8.decode bytes with
  | .ok s => .ok (String.ofList (Text.lineFeeds s.toList))
  | .error e => .error (.notUtf8 e)

namespace Checkout

/-- The name of the file with ignore rules. -/
def ignoreFile : String := ".gitignore"

/-- The ignore rules of a checkout: those in its file and those of the settings. -/
def rules (s : Settings) (c : Checkout) : Except Failure (List IgnoreRule) := do
  let own ← match c.entries.find? (·.name == ignoreFile) with
    | none => pure []
    | some (.directory _ _) => throw (.file .isADirectory (c.path ++ "/" ++ ignoreFile))
    | some (.file _ bytes) => pure (IgnoreRule.ofText (← textOf bytes))
  return own ++ s.excluded.filterMap (IgnoreRule.ofPattern? · false)

/-- A file of a snapshot. -/
def sourceFile (limit : Int) (path : String) (bytes : List UInt8) : SourceFile where
  path
  content := if bytes.length ≤ limit then (textOf bytes).toOption else none
  size := bytes.length

/-- What the metadata tells about the remote. -/
def remoteMetadata (address : Option String) : List (String × Json) :=
  match address.bind fun a => Remote.ofAddress? (Text.trimmed a) with
  | some r => r.metadata.map fun (k, v) => (k, .text v)
  | none => []

/-- The branch that `git` names, or the usual one. -/
def branchOf (answer : Option String) : String :=
  let name := Text.trimmed (answer.getD "")
  if name.isEmpty then "main" else name

/-- The snapshot of a checkout. -/
def snapshot (git : Git) (s : Settings) (c : Checkout) : Attempt Repository := do
  let rules ← ExceptT.mk (pure (c.rules s))
  let files := (Tree.visible rules c.entries).map fun f => sourceFile s.limits.maxFileSize f.1 f.2
  inform ("Loaded " ++ toString files.length ++ " files from " ++ c.path)
  let log ← git.ask (History.logArguments s.limits.maxCommits)
  let branch ← git.ask History.branchArguments
  let remote ← git.ask History.remoteArguments
  return {
    files
    commits := History.commits (log.getD "")
    defaultBranch := branchOf branch
    metadata := [("name", .text (Path.nameOf c.path)), ("root", .text c.path)] ++
      remoteMetadata remote }

end Checkout

namespace Workplace

/-- A path as an absolute one. -/
def absolute (w : Workplace) (path : String) : String :=
  String.ofList (Path.normalize (Path.join w.here.toList path.toList))

/-- What lies at an absolute path. -/
def at? (w : Workplace) (path : String) : Option Tree := w.root.at? (Path.segments path)

/-- The checkout at a path. -/
def checkout (w : Workplace) (path : String) : Except Failure Checkout :=
  match w.at? (w.absolute path) with
  | none => .error (.noSuchPath path)
  | some (.file _ _) => .error (.notADirectory path)
  | some (.directory _ es) => .ok ⟨w.absolute path, es⟩

/-- The snapshot of the checkout at a path. -/
def load (w : Workplace) (s : Settings) (path : String) : Attempt Repository := do
  let c ← ExceptT.mk (pure (w.checkout path))
  c.snapshot w.git s

/-- The absolute path of the settings that a path leads to: itself, or the
usual file in a directory. -/
def settingsPath (w : Workplace) (path : String) : String :=
  let p := w.absolute path
  match w.at? p with
  | some (.directory _ _) =>
    String.ofList (Path.normalize (Path.join p.toList Settings.fileName.toList))
  | _ => p

/-- The settings that a path leads to; the standard ones if there is no such file. -/
def settings (w : Workplace) (path : String) : Except Failure Settings := do
  let p := w.settingsPath path
  match w.at? p with
  | none => return {}
  | some (.directory _ _) => throw (.file .isADirectory p)
  | some (.file _ bytes) => Settings.ofText w.yaml (Path.nameOf p) (← textOf bytes)

/-- Why a file cannot be written at a path. -/
def writeFault? (w : Workplace) (path : String) : Option FileFault :=
  let start := if path.startsWith "/" then [w.root] else w.root.way (Path.segments w.here)
  match start with
  | dir :: above => Tree.writeFaultFrom above dir (Path.segments path)
  | [] => none

/-- Why a file cannot be written at an absolute path without detours. -/
def absoluteWriteFault? (w : Workplace) (path : String) : Option FileFault :=
  Tree.writeFaultFrom [] w.root (Path.segments path)

/-- The workplace with an empty file at an absolute path, unless a file is there. -/
def touch (w : Workplace) (path : String) : Workplace :=
  if (w.at? path).isSome then w
  else
    { w with root :=
        .directory w.root.name (Tree.insertFile [] (Path.segments path) w.root.entries) }

/-- A path as it looks from the working directory: relative if it leads into it. -/
def shown (w : Workplace) (path : String) : String :=
  let from? (here there : List String) : Option (List String) :=
    if here.isPrefixOf there then some (there.drop here.length) else none
  match from? (Path.segments w.here) (Path.segments (w.absolute path)) with
  | some [] => "."
  | some ss => "/".intercalate ss
  | none => String.ofList (Path.compact path.toList)

end Workplace
end CodeSurvey
