/-
# Technical debt

First the smells, line by line; then the files that are too complex, by path; then the blocks of
lines that occur more than once, by first occurrence. A block is a number of consecutive lines,
trimmed, none of them blank, and longer than a minimum when joined; each of its occurrences counts,
overlapping ones too. Blocks are told apart by their joined lines.
-/

import CodeSurvey.Finding
import CodeSurvey.Finding.LinePattern
import CodeSurvey.Keyed
import CodeSurvey.Path
import CodeSurvey.Quality
import CodeSurvey.Slice

namespace CodeSurvey
namespace Debt

open Pattern

/-- What counts as debt. -/
structure Options where
  complexityThreshold : Int := 20
  blockSize : Int := 5
  minBlockChars : Int := 50
  limit : Int := 500

/-- The smells looked for. -/
def patterns : List LinePattern :=
  [{ pattern := all [wordEdge, word "console.log", blanks, one '('], kind := "smell",
     severity := "low", effort := "low", extensions := some ecmascriptExtensions },
    { pattern := all [word "//", blanks, word "@ts-", words ["ignore", "nocheck"]], kind := "smell",
      severity := "medium", extensions := some ecmascriptExtensions },
    { pattern := all [orElse (one ':') (seq wordEdge (word "as")), blanks, word "any", wordEdge],
      kind := "smell", severity := "medium", effort := "high", extensions :=
        some typescriptExtensions },
    { pattern := all [one '#', blanks, word "type:", blanks, word "ignore", wordEdge],
      kind := "smell", severity := "medium", extensions := some [".py", ".pyw"] }]

/-- The item that a smell is. -/
def smellOf (f : LineFind LinePattern) : DebtItem where
  kind := f.pattern.kind
  severity := f.pattern.severity
  path := f.file.path
  line := some f.number
  description := "Code smell detected: " ++ quotedLine f.line
  effort := f.pattern.effort

/-- The files that are too complex, by path. -/
def complexFiles (threshold : Int) (quality : List QualityMetric) : List DebtItem :=
  ((quality.mergeSort fun a b => !(b.path < a.path)).filter fun m =>
    threshold < m.complexity).map fun m =>
    { kind := "complexity", severity := "high", path := m.path, line := none
      description :=
        "Cyclomatic complexity " ++ toString m.complexity ++ " exceeds " ++ toString threshold
      effort := "high" }

/-- A block of trimmed lines. -/
abbrev Block := List (List Char)

/-- The text of a block: its lines with line ends between them. -/
def blockText (b : Block) : List Char := Path.joinWith '\n' b

/-- Whether a block counts. -/
def countsAsBlock (o : Options) (b : Block) : Bool :=
  b.all (!·.isEmpty) && o.minBlockChars < ((blockText b).length : Int)

/-- The lines of a file, trimmed. -/
def trimmedLines (f : SourceFile) : List (List Char) := (Text.lines f.text.toList).map Text.trim

/-- The blocks of a file that count, each with the number of lines before it. -/
def blocksOf (o : Options) (f : SourceFile) : List (Block × Nat) :=
  let lines := trimmedLines f
  if lines.isEmpty then []
  else
    (List.range ((lines.length : Int) - o.blockSize + 1).toNat).filterMap fun start =>
      let block := slice start (start + o.blockSize) lines
      if countsAsBlock o block then some (block, start) else none

/-- The places of each block, by its text, in order of first occurrence. -/
def placesByBlock (o : Options) (files : List SourceFile) :
    List (List Char × List (String × Nat)) :=
  files.foldl
    (fun groups f =>
      (blocksOf o f).foldl
        (fun groups (b, start) =>
          Keyed.modify (blockText b) [] (· ++ [(f.path, start + 1)]) groups) groups)
    []

/-- A place in words. -/
def placeText (p : String × Nat) : String := p.1 ++ ":" ++ toString p.2

/-- The item that a block is whose places are given, if there are several. -/
def duplicationOf? : List (String × Nat) → Option DebtItem
  | first :: second :: rest =>
    some
      { kind := "duplication", severity := "medium", path := first.1, line := some first.2
        description :=
          "Duplicated code block found in " ++ toString (rest.length + 2) ++ " locations (also " ++
            commaJoined (((second :: rest).take 5).map placeText) ++ ")" }
  | _ => none

/-- The blocks that occur more than once. -/
def duplications (o : Options) (files : List SourceFile) : List DebtItem :=
  (placesByBlock o files).filterMap fun g => duplicationOf? g.2

/-- All debt of some files with the given quality. -/
def allItems (o : Options) (files : List SourceFile) (quality : List QualityMetric) :
    List DebtItem :=
  (scanLines id patterns files).map smellOf ++ complexFiles o.complexityThreshold quality ++
    duplications o files

/-- The debt of some files with the given quality, as far as it is reported. -/
def items (o : Options) (files : List SourceFile) (quality : List QualityMetric) : List DebtItem :=
  upTo o.limit (allItems o files quality)

end Debt
end CodeSurvey
