/-
# The ladder of candidates

A specifier seen from an importer names one resolved path (`Resolve.basePath_isResolutionOf`), and
this path gives the rungs of the ladder: itself, its twins of TypeScript, itself with each extension
and the index files below it; at the root only the index files. `Resolve.Resolution` says what a
specifier resolves to: the first rung that is known; where none is, of the known paths that end with
the specifier's names the shortest, and of equally short ones the first in order; or nothing.

`Resolve.resolve?_ladder` proves that every specifier resolves to what this allows and to nothing
else, so that the result is a known path, no ending is preferred to a rung, and the order in which
the known paths are listed does not matter.
-/

import CodeSurvey.DependencyGraph.Resolve
import CodeSurvey.Proofs.Path
import Mathlib.Data.List.MinMax
import Mathlib.Data.Prod.Lex
import Mathlib.Data.String.Basic

namespace CodeSurvey
namespace Resolve

open CodeSurvey.Path Text

/-- The rungs that a path gives, in order. -/
def rungs (base : String) : List String :=
  if base = "" then indexFiles
  else
    let (stem, extension) := splitExtension base.toList
    base :: (twins (lower extension)).map (String.ofList stem ++ ·) ++ extensions.map (base ++ ·) ++
      indexFiles.map (base ++ "/" ++ ·)

/-- Whether a path, with or without its extension, ends with names. -/
def EndsWith (names : List (List Char)) (path : List Char) : Prop :=
  names ≠ [] ∧ (names <:+ fields '/' path ∨ names <:+ fields '/' (splitExtension path).1)

instance (names : List (List Char)) (path : List Char) : Decidable (EndsWith names path) :=
  inferInstanceAs (Decidable (_ ∧ _))

/-- The rank of a path among those with the same ending: its length, then its place
in the order of texts. -/
def rank (path : String) : ℕ ×ₗ String := toLex (path.length, path)

/-- What rungs and the names of a specifier resolve to among known paths. -/
inductive Resolution (rungs : List String) (names : List (List Char)) (known : List String) :
    Option String → Prop
  /-- The first rung that is known. -/
  | rung (before after : List String) (p : String) (hrungs : rungs = before ++ p :: after)
      (hknown : p ∈ known)
      (hfirst : ∀ q ∈ before, q ∉ known) : Resolution rungs names known (some p)
  /-- No rung is known, and of the known paths with the ending no other has so low a rank. -/
  | ending (p : String) (hrungs : ∀ q ∈ rungs, q ∉ known) (hknown : p ∈ known)
      (hends : EndsWith names p.toList)
      (hleast : ∀ q ∈ known, EndsWith names q.toList → rank p ≤ rank q) :
        Resolution rungs names known (some p)
  /-- No rung is known, and no known path has the ending. -/
  | nothing (hrungs : ∀ q ∈ rungs, q ∉ known) (hends : ∀ q ∈ known, ¬ EndsWith names q.toList) :
      Resolution rungs names known none

variable {ladder known known' : List String} {names : List (List Char)} {o o' : Option String}
  {path : List Char}

/-- The path that a specifier names is the resolution of what it joins to the
directory of the importer. -/
theorem basePath_isResolutionOf (specifier importer : List Char) :
    IsResolutionOf (join (directory importer) specifier) (basePath specifier importer) := by
  obtain ⟨base, hbase, hhere, hnormalize⟩ := normalize_spec (join (directory importer) specifier)
  have heq : basePath specifier importer = base := by
    rw [basePath, hnormalize]
    split
    · rename_i hempty
      rw [if_pos (beq_self_eq_true _), List.isEmpty_iff.1 hempty]
    · rw [if_neg (by simpa using hhere)]
  rwa [heq]

theorem map_indexCandidates (base : List Char) :
    (indexCandidates base).map String.ofList =
      if base = [] then indexFiles else indexFiles.map (String.ofList base ++ "/" ++ ·) := by
  rw [indexCandidates, List.map_map]
  by_cases hnil : base = []
  · subst hnil
    exact (List.map_congr_left fun f _ => String.ofList_toList).trans (List.map_id _)
  · rw [if_neg hnil]
    refine List.map_congr_left fun f _ => ?_
    have hslash : String.ofList ('/' :: f.toList) = "/" ++ f := by
      rw [← List.singleton_append, String.ofList_append, String.ofList_toList]
    rw [Function.comp_apply, if_neg (by simpa using hnil), String.ofList_append, hslash,
      String.append_assoc]

theorem map_fileCandidates (base : List Char) :
    (fileCandidates base).map String.ofList =
      String.ofList base :: (twins (lower (splitExtension base).2)).map
        (String.ofList (splitExtension base).1 ++ ·) ++
        extensions.map (String.ofList base ++ ·) := by
  have happend : ∀ (stem : List Char) (ends : List String),
      (ends.map fun e => stem ++ e.toList).map String.ofList =
        ends.map (String.ofList stem ++ ·) := by
    intro stem ends
    rw [List.map_map]
    refine List.map_congr_left fun e _ => ?_
    rw [Function.comp_apply, String.ofList_append, String.ofList_toList]
  rw [fileCandidates, List.map_append, List.map_cons, happend, happend]

/-- The candidates of a path are its rungs. -/
theorem map_candidates (base : List Char) :
    (candidates base).map String.ofList = rungs (String.ofList base) := by
  rw [candidates, List.map_append, map_indexCandidates, rungs, String.toList_ofList]
  by_cases hnil : base = []
  · subst hnil
    rfl
  · have hne : String.ofList base ≠ "" := by
      intro h
      exact hnil (by simpa using congrArg String.toList h)
    rw [if_neg (by simpa using hnil), if_neg hnil, if_neg hne, map_fileCandidates]

theorem precedes_iff {p q : String} : precedes p q = true ↔ rank p < rank q := by
  rw [precedes, rank, rank, Prod.Lex.toLex_lt_toLex, Bool.or_eq_true, Bool.and_eq_true,
    decide_eq_true_iff, beq_iff_eq, decide_eq_true_iff]

/-- The first of some paths is the one of least rank. -/
theorem first?_eq_argmin (ps : List String) : first? ps = ps.argmin rank := by
  cases ps with
  | nil => rfl
  | cons p rest =>
    have hfold : ∀ best,
        some (rest.foldl (fun best q => if precedes q best then q else best) best) =
        rest.foldl (List.argAux fun p q => rank p < rank q) (some best) := by
      induction rest with
      | nil => exact fun best => rfl
      | cons q rest ih =>
        intro best
        rw [List.foldl_cons, List.foldl_cons, ih]
        simp only [List.argAux, precedes_iff, apply_ite]
    exact hfold p

theorem rank_injective : Function.Injective rank := by
  intro p q h
  exact (Prod.mk.inj h).2

theorem endsAtSegment_iff (hne : names ≠ []) (h : ∀ s ∈ names, '/' ∉ s) :
    endsAtSegment (joinWith '/' names) path = true ↔ names <:+ fields '/' path := by
  rw [isSuffix_fields_iff hne h, endsAtSegment, Bool.or_eq_true, beq_iff_eq,
    List.isSuffixOf_iff_suffix]

/-- To match a suffix is to end with the names that it joins. -/
theorem matchesSuffix_iff (hne : names ≠ []) (h : ∀ s ∈ names, '/' ∉ s) :
    matchesSuffix (joinWith '/' names) path = true ↔ EndsWith names path := by
  rw [matchesSuffix, Bool.or_eq_true, endsAtSegment_iff hne h, endsAtSegment_iff hne h, EndsWith,
    and_iff_right hne]

theorem not_mem_of_mem_namedSegments {specifier s : List Char}
    (h : s ∈ namedSegments specifier) : '/' ∉ s :=
  not_mem_of_mem_fields (List.mem_filter.1 h).1

/-- The names of a specifier choose, of the known paths that end with them,
the one of least rank. -/
theorem suffixMatch?_eq_argmin (specifier : List Char) (known : List String) :
    suffixMatch? specifier known =
      (known.filter fun p => decide (EndsWith (namedSegments specifier) p.toList)).argmin rank := by
  rw [suffixMatch?]
  by_cases hnil : namedSegments specifier = []
  · have hnone : ∀ p ∈ known, ¬ decide (EndsWith (namedSegments specifier) p.toList) = true :=
      fun p _ h => (of_decide_eq_true h).1 hnil
    rw [List.filter_eq_nil_iff.2 hnone, hnil]
    rfl
  · have hsame : ∀ p ∈ known, matchesSuffix (joinWith '/' (namedSegments specifier)) p.toList =
        decide (EndsWith (namedSegments specifier) p.toList) := by
      intro p _
      rw [Bool.eq_iff_iff, decide_eq_true_iff]
      exact matchesSuffix_iff hnil fun s hs => not_mem_of_mem_namedSegments hs
    rw [if_neg (by simpa using hnil), first?_eq_argmin, List.filter_congr hsame]

theorem find?_known_eq_some_iff {p : String} :
    ladder.find? known.contains = some p ↔
      p ∈ known ∧ ∃ before after, ladder = before ++ p :: after ∧ ∀ q ∈ before, q ∉ known := by
  simp only [List.find?_eq_some_iff_append, List.contains_iff_mem, Bool.not_eq_true',
    ← Bool.not_eq_true]

/-- A ladder, names and known paths allow one result. -/
theorem Resolution.unique (h : Resolution ladder names known o)
    (h' : Resolution ladder names known o') : o = o' := by
  cases h with
  | rung before after p hrungs hknown hfirst =>
    cases h' with
    | rung before' after' p' hrungs' hknown' hfirst' =>
      have hfind := find?_known_eq_some_iff.2 ⟨hknown, before, after, hrungs, hfirst⟩
      have hfind' := find?_known_eq_some_iff.2 ⟨hknown', before', after', hrungs', hfirst'⟩
      exact hfind.symm.trans hfind'
    | ending p' hnone => exact absurd hknown (hnone p (by simp [hrungs]))
    | nothing hnone => exact absurd hknown (hnone p (by simp [hrungs]))
  | ending p hnone hknown hends hleast =>
    cases h' with
    | rung before after p' hrungs hknown' => exact absurd hknown' (hnone p' (by simp [hrungs]))
    | ending p' _ hknown' hends' hleast' =>
      exact congrArg some (rank_injective
        (le_antisymm (hleast p' hknown' hends') (hleast' p hknown hends)))
    | nothing _ hends' => exact absurd hends (hends' p hknown)
  | nothing hnone hends =>
    cases h' with
    | rung before after p' hrungs hknown' => exact absurd hknown' (hnone p' (by simp [hrungs]))
    | ending p' _ hknown' hends' => exact absurd hends' (hends p' hknown')
    | nothing => rfl

/-- A specifier resolves to what its rungs and its names allow. -/
theorem resolution_resolve? (specifier importer : String) (known : List String) :
    Resolution (rungs (String.ofList (basePath specifier.toList importer.toList)))
      (namedSegments specifier.toList) known
      (resolve? specifier importer known) := by
  rw [resolve?, map_candidates]
  cases hfind : (rungs (String.ofList (basePath specifier.toList importer.toList))).find?
    known.contains with
  | some p =>
    obtain ⟨hknown, before, after, hrungs, hfirst⟩ := find?_known_eq_some_iff.1 hfind
    exact .rung before after p hrungs hknown hfirst
  | none =>
    have hrungs : ∀ q ∈ rungs (String.ofList (basePath specifier.toList importer.toList)),
        q ∉ known :=
      fun q hq => by simpa using List.find?_eq_none.1 hfind q hq
    have hmem : ∀ q,
        q ∈ (known.filter fun p => decide (EndsWith (namedSegments specifier.toList) p.toList)) ↔
        q ∈ known ∧ EndsWith (namedSegments specifier.toList) q.toList := by
      intro q
      rw [List.mem_filter, decide_eq_true_iff]
    simp only [suffixMatch?_eq_argmin]
    cases hleast : (known.filter fun p =>
      decide (EndsWith (namedSegments specifier.toList) p.toList)).argmin rank with
    | none =>
      refine .nothing hrungs fun q hq hends => ?_
      have hnil := List.argmin_eq_none.1 hleast
      exact List.not_mem_nil (hnil ▸ (hmem q).2 ⟨hq, hends⟩)
    | some p =>
      obtain ⟨hknown, hends⟩ := (hmem p).1 (List.argmin_mem hleast)
      exact .ending p hrungs hknown hends fun q hq hq' =>
        List.le_of_mem_argmin ((hmem q).2 ⟨hq, hq'⟩) hleast

/-- A resolution does not depend on how the known paths are listed. -/
theorem Resolution.congr (hsame : ∀ p, p ∈ known' ↔ p ∈ known)
    (h : Resolution ladder names known o) : Resolution ladder names known' o := by
  cases h with
  | rung before after p hrungs hknown hfirst =>
    exact .rung before after p hrungs ((hsame p).2 hknown) fun q hq => mt (hsame q).1 (hfirst q hq)
  | ending p hnone hknown hends hleast =>
    exact .ending p (fun q hq => mt (hsame q).1 (hnone q hq)) ((hsame p).2 hknown) hends
      fun q hq => hleast q ((hsame q).1 hq)
  | nothing hnone hends =>
    exact .nothing (fun q hq => mt (hsame q).1 (hnone q hq)) fun q hq => hends q ((hsame q).1 hq)

/-- Where a rung is known, the result is a rung. -/
theorem Resolution.mem_ladder (h : Resolution ladder names known o) {r : String} (hr : r ∈ ladder)
    (hknown : r ∈ known) : ∃ p ∈ ladder, o = some p := by
  cases h with
  | rung before after p hrungs => exact ⟨p, by simp [hrungs], rfl⟩
  | ending p hnone => exact absurd hknown (hnone r hr)
  | nothing hnone => exact absurd hknown (hnone r hr)

/-- **The resolution ladder.** The specifier and the importer name one resolved path; the
specifier resolves to what the rungs of this path and its own names allow, and to nothing else. So
the result is a known path, it is a rung where some rung is known, and it does not depend on the
order of the known paths. -/
theorem resolve?_ladder (specifier importer : String) (known : List String) :
    ∃ base,
      (∀ cs, IsResolutionOf (join (directory importer.toList) specifier.toList) cs ↔ cs = base) ∧
      (∀ o, resolve? specifier importer known = o ↔
        Resolution (rungs (String.ofList base)) (namedSegments specifier.toList) known o) ∧
      (∀ p, resolve? specifier importer known = some p → p ∈ known) ∧
      ((∃ r ∈ rungs (String.ofList base), r ∈ known) →
        ∃ p ∈ rungs (String.ofList base), resolve? specifier importer known = some p) ∧
      ∀ known', (∀ p, p ∈ known' ↔ p ∈ known) →
        resolve? specifier importer known' = resolve? specifier importer known := by
  have hbase := basePath_isResolutionOf specifier.toList importer.toList
  have hresolution := resolution_resolve? specifier importer
  refine ⟨_, fun cs => ⟨fun h => h.unique hbase, fun h => h ▸ hbase⟩, fun o => ⟨?_, ?_⟩,
    fun p => resolve?_mem, ?_, ?_⟩
  · rintro rfl
    exact hresolution known
  · exact (hresolution known).unique
  · rintro ⟨r, hr, hknown⟩
    exact (hresolution known).mem_ladder hr hknown
  · exact fun known' hsame => (hresolution known').unique ((hresolution known).congr hsame)

example : resolve? "./x.js" "src/a.ts" ["lib/x.js", "x.js", "src/x.js.ts", "src/x.tsx"] =
    some "src/x.tsx" := by
  decide +kernel

end Resolve
end CodeSurvey
