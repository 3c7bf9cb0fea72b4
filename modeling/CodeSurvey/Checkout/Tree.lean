/-
# Trees of files

What lies in a directory: files with their bytes, and directories. `visible` lists the files of a
checkout that are not left out: a directory's own files by name before those of the directories in
it, which are taken by name too. A directory that is left out takes with it all that lies below.
-/

import CodeSurvey.Checkout.IgnoreRule
import CodeSurvey.Classification
import CodeSurvey.Failure

namespace CodeSurvey

/-- A file with its bytes, or a directory. -/
inductive Tree
  | file (name : String) (bytes : List UInt8)
  | directory (name : String) (entries : List Tree)

namespace Tree

/-- The name of an entry. -/
def name : Tree → String
  | file n _ => n
  | directory n _ => n

/-- What lies in an entry. -/
def entries : Tree → List Tree
  | file _ _ => []
  | directory _ es => es

/-- Whether an entry is a directory. -/
def isDirectory : Tree → Bool
  | file _ _ => false
  | directory _ _ => true

/-- The entry at a path below an entry. -/
def at? : List String → Tree → Option Tree
  | [], t => some t
  | s :: rest, t => (t.entries.find? (·.name == s)).bind (at? rest)

/-- The entries on the way to a path, the last one first, as far as they are there. -/
def way (t : Tree) : List String → List Tree
  | [] => [t]
  | s :: rest =>
    match t.entries.find? (·.name == s) with
    | some u => way u rest ++ [t]
    | none => [t]

/-- Why no file can be written at a path that is followed from a directory on; the directories above
it are given, the nearest first. -/
def writeFaultFrom : (above : List Tree) → (dir : Tree) → List String → Option FileFault
  | _, dir, [] => if dir.isDirectory then some .isADirectory else none
  | _, file _ _, _ :: _ => some .notADirectory
  | above, dir, s :: rest =>
    if s == "." then writeFaultFrom above dir rest
    else if s == ".." then
      match above with
      | [] => writeFaultFrom [] dir rest
      | up :: more => writeFaultFrom more up rest
    else
      match dir.entries.find? (·.name == s) with
      | some t => writeFaultFrom (dir :: above) t rest
      | none => if rest.isEmpty then none else some .missing

/-- The entries with one more, which takes the place of one of the same name. -/
def put (t : Tree) (es : List Tree) : List Tree :=
  if es.any (·.name == t.name) then es.map fun e => if e.name == t.name then t else e else es ++ [t]

/-- The entries in a directory of some name, none if there is no such directory. -/
def entriesOf (name : String) (es : List Tree) : List Tree :=
  ((es.find? (·.name == name)).map entries).getD []

/-- The entries with an entry at a path, and directories on the way to it. -/
def insert (entry : (name : String) → Tree) : (path : List String) → List Tree → List Tree
  | [], es => es
  | [name], es => put (entry name) es
  | name :: rest, es => put (directory name (insert entry rest (entriesOf name es))) es

/-- The entries with a file at a path. -/
def insertFile (bytes : List UInt8) (path : List String) (es : List Tree) : List Tree :=
  insert (file · bytes) path es

/-- The entries with a directory at a path. -/
def insertDirectory : (path : List String) → List Tree → List Tree
  | [], es => es
  | name :: rest, es => put (directory name (insertDirectory rest (entriesOf name es))) es

/-- Names that no checkout means to hold. -/
def strayNames : List String := [".DS_Store", "Thumbs.db"]

/-- The path of an entry in a directory. -/
def pathIn (dir name : String) : String := if dir.isEmpty then name else dir ++ "/" ++ name

/-- Whether a file is left out. -/
def isStray (rules : List IgnoreRule) (dir name : String) : Bool :=
  strayNames.contains name || IgnoreRule.ignores rules (pathIn dir name) false

/-- Whether a directory is left out. -/
def isClosed (rules : List IgnoreRule) (dir name : String) : Bool :=
  Classification.standard.excludedDirectories.contains name ||
    IgnoreRule.ignores rules (pathIn dir name) true

/-- The value of a name, by name. -/
def byName {α : Type} (xs : List (String × α)) : List (String × α) :=
  xs.mergeSort fun a b => !(b.1 < a.1)

/-- The files among some entries that are not left out, under their paths and by name. -/
def ownFiles (rules : List IgnoreRule) (dir : String) (es : List Tree) :
    List (String × List UInt8) :=
  let files := es.filterMap fun e =>
    match e with
    | file n bytes => if isStray rules dir n then none else some (n, bytes)
    | directory _ _ => none
  (byName files).map fun f => (pathIn dir f.1, f.2)

mutual

/-- The files below an entry, if it is a directory that is not left out. -/
def visibleBelow (rules : List IgnoreRule) (dir : String) :
    Tree → List (String × List (String × List UInt8))
  | file _ _ => []
  | directory n es =>
    if isClosed rules dir n then []
    else
      let here := pathIn dir n
      [(n, ownFiles rules here es ++ (byName (visibleBelowAll rules here es)).flatMap Prod.snd)]

/-- The files below each of some entries, under the name of the entry. -/
def visibleBelowAll (rules : List IgnoreRule) (dir : String) :
    List Tree → List (String × List (String × List UInt8))
  | [] => []
  | t :: ts => visibleBelow rules dir t ++ visibleBelowAll rules dir ts

end

/-- The files of a checkout that are not left out, with their paths. -/
def visible (rules : List IgnoreRule) (es : List Tree) : List (String × List UInt8) :=
  ownFiles rules "" es ++ (byName (visibleBelowAll rules "" es)).flatMap Prod.snd

end Tree
end CodeSurvey
