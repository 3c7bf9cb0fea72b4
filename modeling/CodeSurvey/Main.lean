/-
# The program

Reads the files that the arguments speak of, runs the command line on them, and prints and saves
what it gives. No syntax tree and no history can be had here, so that imports are found in the text
of files. The clock stands still, and no deadline passes.
-/

import CodeSurvey.CommandLine
import Std.Time.DateTime.Timestamp

namespace CodeSurvey
namespace Program

/-- An entry of a directory with all that lies in it. Directories that no survey looks into stay
closed, and a file that cannot be read is empty. -/
partial def treeOf (e : IO.FS.DirEntry) : IO Tree := do
  if (← e.path.symlinkMetadata).type matches .dir then
    if Tree.isClosed [] "" e.fileName then return .directory e.fileName []
    return .directory e.fileName (← (← e.path.readDir).toList.mapM treeOf)
  let bytes ← try IO.FS.readBinFile e.path catch _ => pure ByteArray.empty
  return .file e.fileName bytes.toList

/-- The workplace with another entry at a path. -/
def withEntry (w : Workplace) (path : String) (entry : String → Tree) : Workplace :=
  { w with root :=
    .directory "" (Tree.insert entry (Path.segments (w.absolute path)) w.root.entries) }

/-- The workplace with what lies at a path. -/
def withPath (w : Workplace) (path : String) : IO Workplace := do
  let place := (← IO.currentDir) / path
  if ← place.isDir then
    let entries ← (← place.readDir).toList.mapM treeOf
    return withEntry w path (.directory · entries)
  else if ← place.pathExists then
    let bytes ← IO.FS.readBinFile place
    return withEntry w path (.file · bytes.toList)
  else return w

/-- The workplace with the directory in which a file is to be written, if there is one. -/
def withDirectoryOf (w : Workplace) (path : String) : IO Workplace := do
  let directory := (Path.directoryOf (w.absolute path))
  if ← ((← IO.currentDir) / directory).isDir then
    return { w with
      root := .directory "" (Tree.insertDirectory (Path.segments directory) w.root.entries) }
  else return w

/-- What a request can see. -/
def workplaceFor (r : CommandLine.Request) : IO Workplace := do
  let here := (← IO.currentDir).toString
  let w : Workplace := { here, root := .directory "" [], git := fun _ => .notInstalled }
  let w ← (r.path.getD "." :: r.config.toList).foldlM withPath w
  (r.output.toList ++ r.logFile.toList).foldlM withDirectoryOf w

/-- The lines of the log file. -/
def logText (es : List Entry) : String :=
  "".intercalate (es.map fun e =>
    match e with
    | .warning w => Log.fileText none .warning (Log.warningText w)
    | .note severity text => Log.fileText none severity text
    | _ => "")

/-- Adds a text to the end of a file. -/
def append (path text : String) : IO Unit := do
  let h ← IO.FS.Handle.mk path .append
  h.putStr text

/-- Runs the program. -/
def run (arguments : List String) : IO UInt32 := do
  let r := (CommandLine.read arguments).toOption
  let w ← workplaceFor (r.getD {})
  let parser : Parser := { tree := fun _ _ => .error .noParse }
  let now := Moment.ofUnixSeconds (← Std.Time.Timestamp.now).toSecondsSinceUnixEpoch.val.toNat
  match CommandLine.run w parser [.zero] now arguments with
  | .error f =>
    IO.eprintln f.message
    return 1
  | .ok o =>
    IO.eprint o.consoleText
    for path in (r.bind (·.logFile)).toList do append path (logText o.journal)
    for (path, text) in o.saved.toList do IO.FS.writeFile path text
    IO.print o.printed
    return o.status.toUInt32

end Program
end CodeSurvey

/-- Runs the program on the arguments that it was started with. -/
def main (arguments : List String) : IO UInt32 := CodeSurvey.Program.run arguments
