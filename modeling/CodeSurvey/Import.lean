/-
# Imports

An import as it is written in a source file: what it names, in which way, and on which line.
-/

import CodeSurvey.Text.Lines

namespace CodeSurvey

/-- The way in which an import is written. -/
inductive ImportKind
  | static
  | reexport
  | require
  | dynamic
  | plain
  | fromModule
  deriving DecidableEq, Repr

/-- The word for a way of importing. -/
def ImportKind.word : ImportKind → String
  | static => "static"
  | reexport => "reexport"
  | require => "require"
  | dynamic => "dynamic"
  | plain => "import"
  | fromModule => "from"

/-- An import in a source file. -/
structure ImportReference where
  specifier : String
  kind : ImportKind
  line : Nat
  deriving DecidableEq, Repr

/-- The path that a relative import of Python names: one dot is the package itself, each further dot
the package above, and the dots of the module become slashes. -/
def relativeSpecifier (dots : Int) (module : List Char) : List Char :=
  let climb :=
    if dots ≤ 1 then ['.', '/'] else (List.replicate (dots - 1).toNat ['.', '.', '/']).flatten
  climb ++ module.map fun c => if c == '.' then '/' else c

/-- The distinct texts of a list that are not blank, trimmed, in order of first mention. -/
def distinctTrimmed (specifiers : List String) : List String :=
  (specifiers.foldl
    (fun seen s =>
      let s := Text.trimmed s
      if s.isEmpty || seen.contains s then seen else s :: seen) []).reverse

end CodeSurvey
