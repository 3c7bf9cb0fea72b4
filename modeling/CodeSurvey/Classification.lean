/-
# Which files count, and what they are

Everything here is decided by the path of a file and the tables of a classification. Backslashes
count as slashes and leading slashes are dropped.

* A file is *analyzable* when no directory on its path is excluded, neither its extension nor its
  name is one of generated or bundled files, and its language is known.
* It is *parseable* when it is analyzable and a grammar exists for its extension.
* It is a *test* by its name or by a directory of tests on its path.
* Its *tokens* are the words of its path in lower case, split at separators and where a capital
  follows a small letter or digit, each also without a plural `s`; they decide its role and layer.

Names are compared in lower case. Test names are compared without regard to case, where some letters
beyond ASCII fold to ASCII ones. An ending also counts before a final line feed.
-/

import CodeSurvey.Path
import CodeSurvey.Role
import CodeSurvey.Text.Case

namespace CodeSurvey

open Text

/-- Whether a text ends with a word. -/
def endsWith (word cs : List Char) : Bool := word.isSuffixOf cs

/-- Whether a text ends with a word, or does so before a final line feed. -/
def endsLineWith (word cs : List Char) : Bool := endsWith word cs || endsWith (word ++ ['\n']) cs

/-- The endings of names that tools generate. -/
def generatedEndings : List String :=
  ["vite-env.d.ts", ".config.js", ".config.ts", ".config.mjs", ".config.cjs", ".min.js", ".min.css",
    ".bundle.js", ".bundle.css", ".chunk.js", ".chunk.css", "package-lock.json", "yarn.lock",
    "pnpm-lock.yaml", "composer.lock", "pipfile.lock", "poetry.lock", ".log", ".tmp",
    ".temp", ".cache"]

/-- Whether a name in lower case is hidden or generated. -/
def isGeneratedName (name : List Char) : Bool :=
  name.head? == some '.' || generatedEndings.any fun e => endsLineWith e.toList name

/-- A character with its case ignored: ASCII letters in lower case, and the four letters beyond
ASCII that stand for `i`, `k` or `s`. -/
def foldCase (c : Char) : Char :=
  if isUpperAscii c then Char.ofNat (c.toNat + 32)
  else if c.toNat == 0x130 || c.toNat == 0x131 then 'i'
  else if c.toNat == 0x17F then 's'
  else if c.toNat == 0x212A then 'k'
  else c

/-- The endings of the names of tests, with case ignored. -/
def testEndings : List String :=
  (["test", "spec"].flatMap fun w =>
    ["js", "jsx", "ts", "tsx", "mjs", "cjs", "mts", "cts"].map fun e => "." ++ w ++ "." ++ e) ++
  ["_test.py", "test.java", "tests.java", "_test.go", ".test.cs"]

/-- The names of directories that hold tests. -/
def testDirectories : List String := ["__tests__", "test", "tests"]

/-- Whether a path with slashes is one of a test. -/
def isTestPath (path : List Char) : Bool :=
  let cs := path.map foldCase
  let name := Path.name cs
  testEndings.any (fun e => endsLineWith e.toList cs) ||
    (fields '/' cs).dropLast.any (fun part => testDirectories.contains (String.ofList part)) ||
    ("test_".toList.isPrefixOf name && endsLineWith ".py".toList name)

/-- The tables that a classification reads. Patterns stand in them as what they find: those of files
to be left out in a name in lower case, those of tests in a path with slashes. -/
structure Classification where
  excludedDirectories : List String
  excludedExtensions : List String
  languageByExtension : List (String × String)
  languageByName : List (String × String)
  parseableExtensions : List String
  excludesName : List Char → Bool := isGeneratedName
  marksTest : List Char → Bool := isTestPath

namespace Classification

/-- The tables used unless others are given. -/
def standard : Classification where
  excludedDirectories :=
    ["node_modules", ".git", ".hg", ".svn", "dist", "build", "coverage", "public",
      "assets", "vendor", ".vscode", ".idea", "__pycache__", ".pytest_cache", ".mypy_cache",
      ".venv", ".next", ".turbo"]
  excludedExtensions :=
    [".svg", ".png", ".jpg", ".jpeg", ".gif", ".ico", ".webp", ".bmp", ".woff", ".woff2", ".eot",
      ".ttf", ".otf", ".mp4", ".webm", ".ogg", ".mp3", ".wav", ".zip", ".gz", ".tar", ".rar", ".7z",
      ".pdf", ".doc", ".docx", ".xls", ".xlsx", ".ppt", ".pptx", ".pyc", ".pyd", ".pyo", ".jar",
      ".class", ".so", ".dll", ".exe", ".lock", ".log", ".csv", ".d.ts", ".d.mts", ".d.cts",
      ".min.js", ".min.css", ".map"]
  languageByExtension :=
    [(".ts", "typescript"), (".tsx", "typescript"), (".mts", "typescript"), (".cts", "typescript"),
      (".js", "javascript"), (".jsx", "javascript"), (".mjs", "javascript"), (".cjs", "javascript"),
      (".html", "html"), (".htm", "html"), (".css", "css"), (".scss", "scss"), (".sass", "sass"),
      (".less", "less"), (".styl", "stylus"), (".py", "python"), (".pyw", "python"),
      (".java", "java"),
      (".cs", "csharp"), (".c", "c"), (".h", "c"), (".cpp", "cpp"), (".hpp", "cpp"), (".cc", "cpp"),
      (".rb", "ruby"), (".php", "php"), (".go", "go"), (".rs", "rust"), (".swift", "swift"),
      (".kt", "kotlin"), (".kts", "kotlin"), (".sh", "shell"), (".bash", "shell"),
      (".zsh", "shell"),
      (".json", "json"), (".xml", "xml"), (".md", "markdown"), (".yml", "yaml"), (".yaml", "yaml"),
      (".toml", "toml"), (".dockerfile", "dockerfile")]
  languageByName := [("dockerfile", "dockerfile")]
  parseableExtensions :=
    [".js", ".jsx", ".mjs", ".cjs", ".ts", ".tsx", ".mts", ".cts", ".py", ".pyw"]

end Classification

/-- The path with slashes for backslashes and without leading slashes. -/
def slashed (cs : List Char) : List Char := (Path.forward cs).dropWhile (· == '/')

/-- The final extension of a path in lower case with its dot, empty when its name has none. -/
def extensionOf (path : String) : String :=
  let name := Path.name (slashed path.toList)
  if (name.dropWhile (· == '.')).contains '.' then
    String.ofList ('.' :: lower (name.reverse.takeWhile (· != '.')).reverse)
  else ""

/-- The language of a path: by its whole name, else by its extension. -/
def Classification.language? (t : Classification) (path : String) : Option String :=
  let name := String.ofList (lower (Path.name (slashed path.toList)))
  match t.languageByName.lookup name with
  | some l => if l.isEmpty then t.languageByExtension.lookup (extensionOf path) else some l
  | none => t.languageByExtension.lookup (extensionOf path)

/-- Whether some directory on a slashed path is excluded. -/
def Classification.hasExcludedDirectory (t : Classification) (cs : List Char) : Bool :=
  (fields '/' (Path.directory cs)).any fun part =>
    !part.isEmpty && t.excludedDirectories.contains (String.ofList part)

/-- Whether a name is one of a file to be left out. -/
def Classification.isExcludedName (t : Classification) (name : List Char) : Bool :=
  let small := lower name
  t.excludedExtensions.any (fun e => endsWith e.toList small) || t.excludesName small

/-- Whether the analysis looks at the file. -/
def Classification.isAnalyzable (t : Classification) (path : String) : Bool :=
  let cs := slashed path.toList
  let name := Path.name cs
  !name.isEmpty && !t.hasExcludedDirectory cs && !t.isExcludedName name && (t.language? path).isSome

/-- Whether the file is analyzable and a grammar may exist for it. -/
def Classification.isParseable (t : Classification) (path : String) : Bool :=
  t.isAnalyzable path && t.parseableExtensions.contains (extensionOf path)

/-- Whether a path is one of a test. -/
def Classification.isTest (t : Classification) (path : String) : Bool :=
  t.marksTest (slashed path.toList)

/-- Whether a path is one of a test by the tables that are used unless others are given. -/
def isTest (path : String) : Bool := Classification.standard.isTest path

/-- A character that separates the words of a path. -/
def isWordSeparator (c : Char) : Bool := c == '/' || c == '.' || c == '_' || c == '-' || isBlank c

/-- The parts of a chunk, cut where a capital follows a small letter or digit. -/
def camelParts : List Char → List (List Char)
  | [] => [[]]
  | [c] => [[c]]
  | c :: d :: r =>
    match camelParts (d :: r) with
    | [] => [[c]]
    | part :: parts =>
      if (isLowerAscii c || isDigitAscii c) && isUpperAscii d then [c] :: part :: parts
      else (c :: part) :: parts

/-- A word and, if it looks like a plural, the word without its `s`. -/
def withSingular (word : List Char) : List (List Char) :=
  if 3 < word.length && endsWith ['s'] word && !endsWith ['s', 's'] word then [word, word.dropLast]
  else [word]

/-- The tokens of a chunk between separators. -/
def chunkTokens (chunk : List Char) : List String :=
  (((camelParts chunk).map lower).filter (!·.isEmpty)).flatMap fun w =>
    (withSingular w).map String.ofList

/-- The words of a path in lower case, plurals also without their `s`. -/
def pathTokens (cs : List Char) : List String :=
  ((fieldsBy isWordSeparator cs).filter (!·.isEmpty)).flatMap chunkTokens

/-- The words that name a role; the first that occurs decides. -/
def roleWords : List (String × Role) :=
  [("service", .service), ("controller", .controller), ("component", .component), ("page", .page),
    ("hook", .hook), ("util", .utility), ("utility", .utility), ("helper", .utility),
    ("config", .config), ("setting", .config), ("test", .test), ("spec", .test)]

/-- The groups of words that name a layer; the first group with a word that occurs decides. -/
def layerWords : List (List String × Layer) :=
  [(["controller", "api", "route", "router"], .presentation),
    (["service", "business", "logic"], .business),
    (["repository", "dao", "database", "db", "model"], .data),
    (["page", "view", "screen"], .presentation),
    (["component", "ui"], .presentation),
    (["hook", "store", "context"], .business),
    (["util", "utility", "helper", "lib"], .utility),
    (["config", "constant", "env", "setting"], .infrastructure),
    (["test", "spec"], .test),
    (["middleware", "guard", "filter"], .infrastructure)]

/-- Whether a name is one of a hook: `use` before a capital or a digit. -/
def isHookName : List Char → Bool
  | 'u' :: 's' :: 'e' :: c :: _ => isUpperAscii c || isDigitAscii c
  | _ => false

/-- The role that a path tells. -/
def roleOf (path : String) : Role :=
  let cs := slashed path.toList
  if isHookName ((Path.name cs).takeWhile (· != '.')) then .hook
  else
    let tokens := pathTokens cs
    match roleWords.find? fun (word, _) => tokens.contains word with
    | some (_, role) => role
    | none => .module

/-- The layer that the words of a path name. -/
def layerByWords (tokens : List String) : Option Layer :=
  (layerWords.find? fun (words, _) => words.any tokens.contains).map Prod.snd

/-- The layer that a path tells, else the one its role suggests. -/
def layerOf (path : String) (role : Role) : Layer :=
  (layerByWords (pathTokens (slashed path.toList))).getD role.layer

end CodeSurvey
