/-
# Settings files

The settings that a YAML text gives, whatever function reads the YAML. A text of blanks gives the
standard settings, and so does one whose value is null; any other value must be a mapping. A text
that is no YAML is refused, and any other failure of the reader passes.

A setting that is missing, has a value of another kind or is out of its range keeps its
standard value. Ceilings must be positive and weights must not be negative. A number may also
be written as a text. A list of words may be a single word; what is not a word, a number or a
truth value is left out of it.
-/

import CodeSurvey.Number
import CodeSurvey.Settings
import CodeSurvey.Text.Lines
import CodeSurvey.Yaml

namespace CodeSurvey
namespace Settings

open Yaml (Document Value)

/-- The usual name of a settings file. -/
def fileName : String := ".repolens.yml"

/-- A value under a key of a mapping. -/
def memberIn (d : Document) (group : Option Value) (key : String) : Option Value :=
  group.bind (d.member? key)

/-- The whole number that a value gives. -/
def wholeOf? : Value → Option Int
  | .integer n => some n
  | .text s => Numeral.integer? s.toList
  | _ => none

/-- The real number that a value gives. -/
def realOf? : Value → Except Failure (Option Binary64)
  | .integer n =>
    match Binary64.ofInt? n with
    | some x => .ok (some x)
    | none => .error .integerTooLarge
  | .real x => .ok (some x)
  | .text s => .ok (Numeral.real? s.toList)
  | _ => .ok none

/-- The word that a value in a list gives. -/
def wordOf? : Value → Except Failure (Option String)
  | .text s => .ok (some s)
  | .boolean b => .ok (some (if b then "True" else "False"))
  | .integer n => some <$> Numeral.written n
  | .real x => .ok (some x.shortest)
  | _ => .ok none

/-- The words that a value gives. -/
def wordsOf (d : Document) : Option Value → Except Failure (List String)
  | some (.text s) => .ok [s]
  | some (.bytes bs) => .ok (bs.map fun b => toString b.toNat)
  | some (.sequence ids) => (ids.mapM fun id => wordOf? (d.value id)).map (·.filterMap id)
  | _ => .ok []

/-- A positive whole number under a key, or the standard value. -/
def ceiling (d : Document) (group : Option Value) (key : String) (standard : Int) : Int :=
  (((memberIn d group key).bind wholeOf?).filter (0 < ·)).getD standard

/-- A real number under a key that is in a range, or the standard value. -/
def realWhere (d : Document) (group : Option Value) (inRange : Binary64 → Bool) (key : String)
    (standard : Binary64) : Except Failure Binary64 :=
  match memberIn d group key with
  | none => .ok standard
  | some v => (realOf? v).map fun x => (x.filter inRange).getD standard

/-- The ceilings under their key. -/
def limitsIn (d : Document) (group : Option Value) : Except Failure Limits := do
  let s : Limits := {}
  let timeout ← realWhere d group (Binary64.lt .zero) "architecture_timeout" s.architectureTimeout
  return {
    maxFileSize := ceiling d group "max_file_size" s.maxFileSize
    maxCommits := ceiling d group "max_commits" s.maxCommits
    largeRepository := ceiling d group "large_repo_threshold" s.largeRepository
    fallbackSample := ceiling d group "fallback_sample_size" s.fallbackSample
    fallbackEdges := ceiling d group "fallback_edge_cap" s.fallbackEdges
    fallbackChain := ceiling d group "fallback_chain_cap" s.fallbackChain
    architectureTimeout := timeout
    qualityBatch := ceiling d group "quality_batch_size" s.qualityBatch }

/-- The coupling settings under their key. -/
def couplingIn (d : Document) (group : Option Value) : Except Failure CouplingSettings := do
  let s : CouplingSettings := {}
  let weight := realWhere d group (Binary64.le .zero)
  let minStrength ← weight "min_strength" s.minStrength
  let directoryWeight ← weight "directory_weight" s.directoryWeight
  let namingWeight ← weight "naming_weight" s.namingWeight
  let indexWeight ← weight "index_weight" s.indexWeight
  return {
    windowDays := ceiling d group "window_days" s.windowDays
    maxCommits := ceiling d group "max_commits" s.maxCommits
    maxFanout := ceiling d group "max_commit_fanout" s.maxFanout
    minCoChanges := ceiling d group "min_co_changes" s.minCoChanges
    maxPairs := ceiling d group "max_pairs" s.maxPairs
    structuralFiles := ceiling d group "structural_file_threshold" s.structuralFiles
    sparsePairs := ceiling d group "sparse_pair_threshold" s.sparsePairs
    minStrength, directoryWeight, namingWeight, indexWeight }

/-- The settings that a document gives. -/
def ofDocument (d : Document) : Except Failure Settings := do
  let group (key : String) : Option Value := d.member? key (d.value d.root)
  match d.value d.root with
  | .null => return {}
  | .mapping _ => do
    let limits ← limitsIn d (group "limits")
    let coupling ← couplingIn d (group "coupling")
    let analyzers ← wordsOf d (memberIn d (group "analyzers") "enabled")
    let maxWorkers := ((group "max_workers").bind wholeOf?).filter (0 < ·)
    let excluded ← wordsOf d (group "exclude_paths")
    return { limits, coupling, analyzers, excluded, maxWorkers := maxWorkers.getD 4 }
  | _ => throw (.badConfiguration (fileName ++ " must contain a mapping at the root"))

/-- The settings in the text of a file of the given name. -/
def ofText (load : Yaml.Loader) (name text : String) : Except Failure Settings :=
  if (Text.trimmed text).isEmpty then .ok {}
  else
    match load text with
    | .error (.notYaml said) => .error (.badConfiguration ("Failed to parse " ++ name ++ said))
    | .error f => .error f
    | .ok d => ofDocument d

end Settings
end CodeSurvey
