/-
# The couplings of places are exact

Two different files have up to four reasons to be coupled by their place (`reasons`): a small
directory that both stand in, a stem that few files share, and a reference of an index file to its
sibling, which may go both ways. Each reason is one piece of evidence for them, in whatever order
the passes over the files come upon it, and there is no other evidence for them
(`evidenceFor_placeEvidence`). So the couplings of places are the first of the pairs that have some
reason, each with the sum of the weights and with the kinds of its reasons, in strict order of rank
(`structuralCouplings_exact`).

The reasons do not depend on each other: an index file may refer to a sibling in a directory that is
too large for its files to belong together.
-/

import CodeSurvey.Proofs.Coupling.Groups
import CodeSurvey.Proofs.Coupling.Merge
import CodeSurvey.Proofs.DependencyGraph.Invariants

namespace CodeSurvey
namespace Coupling

open Binary64 (NoOverflow)
open GraphBuild (analyzable nodup_analyzable)

/-- The kinds of evidence that places give, each with its weight. -/
def placeWeights (s : CouplingSettings) : List (String × Binary64) :=
  [("directory", s.directoryWeight), ("naming", s.namingWeight), ("index", s.indexWeight)]

/-- The directory of a path as its key. -/
def directoryKey (path : String) : Option String := some (Path.directoryOf path)

/-- The stem of the name of a path as its key, if it tells something. -/
def stemKey (path : String) : Option String := namingStem (Path.name path.toList)

/-- The evidence that the places of files give. -/
def placeEvidence (s : CouplingSettings) (files : List SourceFile) : List CouplingPair :=
  let paths := files.map (·.path)
  groupEvidence largestDirectory s.directoryWeight "directory" (groupPaths directoryKey paths) ++
    groupEvidence largestCluster s.namingWeight "naming" (groupPaths stemKey paths) ++
    files.flatMap fun f =>
      indexEvidence s.indexWeight (paths.filter fun p => directoryKey p == directoryKey f.path) f

/-- The couplings of places are the evidence of the files that the analysis looks at, merged. -/
theorem structuralCouplings_eq (c : Classification) (s : CouplingSettings)
    (files : List SourceFile) :
    structuralCouplings c s files =
      mergePairs structuralLimit (placeEvidence s (analyzable c files)) := by
  have hsiblings : ∀ f : SourceFile, ((analyzable c files).map (·.path)).filter
      (fun p => directoryKey p == directoryKey f.path) =
      ((groupPaths directoryKey ((analyzable c files).map (·.path))).lookup
        (Path.directoryOf f.path)).getD [] :=
    fun f => (lookup_groupPaths directoryKey _ _).symm
  rw [placeEvidence]
  simp only [hsiblings]
  rfl

/-- Whether a file is the index of its directory, has text, and refers to a path beside it. -/
def Indexes (f : SourceFile) (path : String) : Prop :=
  isIndexName (Path.name f.path.toList) ∧ f.hasText ∧
    Path.directoryOf path = Path.directoryOf f.path ∧ path ≠ f.path ∧
    refersTo f.text (String.ofList (beforeDot (Path.name path.toList)))
      (endsWith ".py".toList (Path.name f.path.toList))

instance (f : SourceFile) (path : String) : Decidable (Indexes f path) :=
  inferInstanceAs (Decidable (_ ∧ _))

/-- Whether the file of the first of two paths is an index that refers to the second one. -/
def Refers (files : List SourceFile) (a b : String) : Prop :=
  ∃ f ∈ files, f.path = a ∧ b ∈ files.map (·.path) ∧ Indexes f b

instance (files : List SourceFile) (a b : String) : Decidable (Refers files a b) :=
  inferInstanceAs (Decidable (∃ f ∈ files, f.path = a ∧ b ∈ files.map (·.path) ∧ Indexes f b))

/-- The reasons to couple two paths among those of some files: the kind of each piece of
evidence, and its weight. -/
def reasons (s : CouplingSettings) (files : List SourceFile) (a b : String) :
    List (String × Binary64) :=
  let paths := files.map (·.path)
  (if Together directoryKey paths largestDirectory a b then
    [("directory", s.directoryWeight)] else []) ++
    (if Together stemKey paths largestCluster a b then [("naming", s.namingWeight)] else []) ++
    ((if Refers files a b then [("index", s.indexWeight)] else []) ++
      if Refers files b a then [("index", s.indexWeight)] else [])

/-- The piece of evidence that a reason is. -/
def pieceOf (a b : String) (reason : String × Binary64) : CouplingPair :=
  evidence a b reason.2 reason.1

/-- The coupling of two files by their place: the sum of the weights of all
reasons, and their kinds. -/
def placePair (s : CouplingSettings) (files : List SourceFile) (a b : String) : CouplingPair where
  first := a
  second := b
  weight := Binary64.sum ((reasons s files a b).map Prod.snd)
  sources := Text.sortedDistinct ((reasons s files a b).map Prod.fst)

/-- The evidence of an index file is one piece for each path beside it that it refers to. -/
theorem indexEvidence_eq (weight : Binary64) (paths : List String) (f : SourceFile) :
    indexEvidence weight (paths.filter fun p => directoryKey p == directoryKey f.path) f =
      (paths.filter (Indexes f ·)).map fun p => evidence f.path p weight "index" := by
  by_cases h : isIndexName (Path.name f.path.toList) ∧ f.hasText
  · have hrefers : ∀ p ∈ paths, (decide (Indexes f p)) =
        ((p != f.path && refersTo f.text (String.ofList (beforeDot (Path.name p.toList)))
          (endsWith ".py".toList (Path.name f.path.toList))) && directoryKey p ==
            directoryKey f.path) := by
      intro p _
      rw [Bool.eq_iff_iff, decide_eq_true_eq]
      simp only [Indexes, h.1, h.2, true_and, Bool.and_eq_true, bne_iff_ne, beq_iff_eq,
        directoryKey, Option.some.injEq]
      exact and_comm
    rw [List.filter_congr hrefers, ← List.filter_filter, indexEvidence]
    simp [h.1, h.2]
  · have hnone : (paths.filter (Indexes f ·)) = [] := List.filter_eq_nil_iff.2 fun p _ hp => by
      obtain ⟨hindex, htext, -⟩ := of_decide_eq_true hp
      exact h ⟨hindex, htext⟩
    rw [hnone, indexEvidence, if_pos]
    · rfl
    · rw [not_and_or] at h
      simpa using h

/-- Files for which there is a reason are among the given ones. -/
theorem mem_paths_of_mem_reasons {s : CouplingSettings} {files : List SourceFile} {a b : String}
    {r : String × Binary64} (hr : r ∈ reasons s files a b) :
    a ∈ files.map (·.path) ∧ b ∈ files.map (·.path) := by
  have hrefers : ∀ {x y}, Refers files x y → x ∈ files.map (·.path) ∧ y ∈ files.map (·.path) := by
    rintro x y ⟨f, hf, rfl, hy, -⟩
    exact ⟨List.mem_map_of_mem hf, hy⟩
  simp only [reasons, List.mem_append, List.mem_ite_nil_right, List.mem_singleton] at hr
  obtain (⟨h, -⟩ | ⟨h, -⟩) | ⟨h, -⟩ | ⟨h, -⟩ := hr
  · exact ⟨h.1, h.2.1⟩
  · exact ⟨h.1, h.2.1⟩
  · exact hrefers h
  · exact (hrefers h).symm

section Files

variable {s : CouplingSettings} {files : List SourceFile} (hpaths : (files.map (·.path)).Nodup)
include hpaths

/-- Each piece of evidence that places give is of one of the kinds with its weight, and
for two different files. -/
theorem exists_of_mem_placeEvidence {p : CouplingPair} (hp : p ∈ placeEvidence s files) :
    ∃ a b, a ≠ b ∧ ∃ r ∈ placeWeights s, p = pieceOf a b r := by
  rcases List.mem_append.1 hp with hp | hp
  · rcases List.mem_append.1 hp with hp | hp
    · obtain ⟨a, b, hne, rfl⟩ := exists_of_mem_groupEvidence hpaths hp
      exact ⟨a, b, hne, ("directory", s.directoryWeight), by simp [placeWeights], rfl⟩
    · obtain ⟨a, b, hne, rfl⟩ := exists_of_mem_groupEvidence hpaths hp
      exact ⟨a, b, hne, ("naming", s.namingWeight), by simp [placeWeights], rfl⟩
  · obtain ⟨f, -, hp⟩ := List.mem_flatMap.1 hp
    rw [indexEvidence_eq] at hp
    obtain ⟨b, hb, rfl⟩ := List.mem_map.1 hp
    obtain ⟨-, -, -, hne, -⟩ := of_decide_eq_true (List.mem_filter.1 hb).2
    exact ⟨f.path, b, hne.symm, ("index", s.indexWeight), by simp [placeWeights], rfl⟩

/-- The index files give a piece of evidence for two different files in each direction in which
one refers to the other. -/
theorem evidenceFor_indexes (weight : Binary64) {a b : String} (hne : a ≠ b) :
    (evidenceFor (files.flatMap fun f =>
      indexEvidence weight ((files.map (·.path)).filter fun p =>
        directoryKey p == directoryKey f.path) f) a b).Perm
      ((if Refers files a b then [evidence a b weight "index"] else []) ++
        if Refers files b a then [evidence a b weight "index"] else []) := by
  have hdirection : ∀ x y, (files.flatMap fun f =>
      if f.path = x ∧ y ∈ (files.map (·.path)).filter (Indexes f ·) then
        [evidence a b weight "index"] else []) =
      if Refers files x y then [evidence a b weight "index"] else [] := by
    intro x y
    rw [flatMap_of_unique hpaths.of_map (fun f _ => rfl) fun f hf g hg hfx hgx => ?_]
    · simp [Refers]
    · exact List.inj_on_of_nodup_map hpaths hf hg (hfx.1.trans hgx.1.symm)
  rw [← hdirection a b, ← hdirection b a, evidenceFor, List.filter_flatMap]
  refine (List.Perm.of_eq (List.flatMap_congr fun f hf => ?_)).trans
    (List.flatMap_append_perm _ _ _).symm
  rw [indexEvidence_eq]
  exact evidenceFor_row weight "index" hne f.path (hpaths.filter _)

/-- **Each reason is one piece of evidence**, and there is no other evidence for two files. -/
theorem evidenceFor_placeEvidence (s : CouplingSettings) {a b : String} (hne : a ≠ b) :
    (evidenceFor (placeEvidence s files) a b).Perm ((reasons s files a b).map (pieceOf a b)) := by
  have hsplit : evidenceFor (placeEvidence s files) a b =
      evidenceFor (groupEvidence largestDirectory s.directoryWeight "directory"
        (groupPaths directoryKey (files.map (·.path)))) a b ++
      evidenceFor (groupEvidence largestCluster s.namingWeight "naming"
        (groupPaths stemKey (files.map (·.path)))) a b ++
      evidenceFor (files.flatMap fun f => indexEvidence s.indexWeight
        ((files.map (·.path)).filter fun p => directoryKey p == directoryKey f.path) f) a b := by
    rw [evidenceFor, placeEvidence, List.filter_append, List.filter_append]
    rfl
  rw [hsplit, evidenceFor_groupEvidence hpaths _ _ _ hne,
    evidenceFor_groupEvidence hpaths _ _ _ hne, reasons]
  simp only [List.map_append, apply_ite (List.map (pieceOf a b)), List.map_singleton, List.map_nil]
  exact (evidenceFor_indexes hpaths s.indexWeight hne).append_left _

/-- A piece of evidence that places give names its two files in order. -/
theorem ordered_of_mem_placeEvidence {p : CouplingPair} (hp : p ∈ placeEvidence s files) :
    p.first < p.second := by
  obtain ⟨a, b, hne, r, -, rfl⟩ := exists_of_mem_placeEvidence hpaths hp
  exact evidence_ordered r.2 r.1 hne

/-- Two files have some evidence if they have some reason. -/
theorem exists_concerns_iff {a b : String} :
    (a ≤ b ∧ ∃ p ∈ placeEvidence s files, concerns a b p) ↔ a < b ∧ reasons s files a b ≠ [] := by
  have hsome : a ≠ b →
      ((∃ p ∈ placeEvidence s files, concerns a b p) ↔ reasons s files a b ≠ []) := by
    intro hne
    have hlength := (evidenceFor_placeEvidence hpaths s hne).length_eq
    rw [List.length_map] at hlength
    rw [← List.length_pos_iff, ← hlength, evidenceFor, List.length_filter_pos_iff]
  constructor
  · rintro ⟨hle, p, hp, hconcerns⟩
    have hne : a ≠ b := by
      rintro rfl
      have hordered := ordered_of_mem_placeEvidence hpaths hp
      simp only [concerns, Bool.or_self, Bool.and_eq_true, beq_iff_eq] at hconcerns
      rw [hconcerns.1, hconcerns.2] at hordered
      exact String.lt_irrefl a hordered
    exact ⟨Std.lt_of_le_of_ne hle hne, (hsome hne).1 ⟨p, hp, hconcerns⟩⟩
  · rintro ⟨hlt, hreasons⟩
    exact ⟨Std.le_of_lt hlt, (hsome (Std.ne_of_lt hlt)).2 hreasons⟩

/-- What places say of two different files merges into their coupling. -/
theorem mergedOf_placeEvidence (s : CouplingSettings) {a b : String} (hne : a ≠ b) :
    mergedOf (placeEvidence s files) (a, b) = placePair s files a b := by
  have hperm := evidenceFor_placeEvidence hpaths s hne
  have hpiece : ∀ p ∈ evidenceFor (placeEvidence s files) a b,
      p.coChanges = 0 ∧ p.authors = [] ∧ p.lastChanged = none := by
    intro p hp
    obtain ⟨r, -, rfl⟩ := List.mem_map.1 (hperm.mem_iff.1 hp)
    exact ⟨rfl, rfl, rfl⟩
  have hweight : Binary64.sum ((evidenceFor (placeEvidence s files) a b).map (·.weight)) =
      Binary64.sum ((reasons s files a b).map Prod.snd) := by
    rw [Binary64.sum_perm (hperm.map (·.weight)), List.map_map]
    rfl
  have hchanges : total ((evidenceFor (placeEvidence s files) a b).map (·.coChanges)) = 0 :=
    List.sum_eq_zero fun n hn => by
      obtain ⟨p, hp, rfl⟩ := List.mem_map.1 hn
      exact (hpiece p hp).1
  have hauthors : (evidenceFor (placeEvidence s files) a b).flatMap (·.authors) = [] :=
    List.flatMap_eq_nil_iff.2 fun p hp => (hpiece p hp).2.1
  have hdates : (evidenceFor (placeEvidence s files) a b).filterMap (·.lastChanged) = [] :=
    List.filterMap_eq_nil_iff.2 fun p hp => (hpiece p hp).2.2
  have hsources : Text.sortedDistinct
      ((evidenceFor (placeEvidence s files) a b).flatMap (·.sources)) =
      Text.sortedDistinct ((reasons s files a b).map Prod.fst) := by
    refine Text.sortedDistinct_congr fun source => ?_
    rw [(hperm.flatMap_right (·.sources)).mem_iff, List.flatMap_map, List.map_eq_flatMap]
    rfl
  have hnobody : Text.sortedDistinct [] = [] := Text.sortedDistinct_of_pairwise List.Pairwise.nil
  simp only [mergedOf, hweight, hchanges, hauthors, hdates, hsources, hnobody]
  rfl

/-- The evidence for two files has a sum if the reasons to couple them have one. -/
theorem noOverflow_placeEvidence
    (hsums : ∀ a ∈ files.map (·.path), ∀ b ∈ files.map (·.path), a < b →
      NoOverflow ((reasons s files a b).map Prod.snd)) {p : CouplingPair}
    (hp : p ∈ placeEvidence s files) :
    NoOverflow ((evidenceFor (placeEvidence s files) p.first p.second).map (·.weight)) := by
  have hordered := ordered_of_mem_placeEvidence hpaths hp
  have hweights := (evidenceFor_placeEvidence hpaths s (Std.ne_of_lt hordered)).map (·.weight)
  rw [List.map_map] at hweights
  rw [NoOverflow.perm hweights]
  have hreasons : reasons s files p.first p.second ≠ [] :=
    ((exists_concerns_iff hpaths).1 ⟨Std.le_of_lt hordered, p, hp, by simp [concerns]⟩).2
  obtain ⟨r, hr⟩ := List.exists_mem_of_ne_nil _ hreasons
  obtain ⟨hfirst, hsecond⟩ := mem_paths_of_mem_reasons hr
  exact hsums _ hfirst _ hsecond hordered

end Files

/-- **The couplings of places are exact.** If the files have different paths, the weights are finite
and those of the reasons for each two files have a sum, the couplings of places are the first
hundred, by weight and then by name, of exactly the pairs in order of files that the analysis looks
at for which there is some reason, each with the sum of the weights and the kinds of its reasons. -/
theorem structuralCouplings_exact (c : Classification) (s : CouplingSettings)
    (files : List SourceFile) (hpaths : (files.map (·.path)).Nodup)
    (hfinite : ∀ r ∈ placeWeights s, r.2.isFinite) (hsums : ∀ a ∈ (analyzable c files).map (·.path),
        ∀ b ∈ (analyzable c files).map (·.path), a < b →
      NoOverflow ((reasons s (analyzable c files) a b).map Prod.snd)) :
    ∃ all : List CouplingPair, structuralCouplings c s files = .ok (all.take 100) ∧
      (∀ a b, (a, b) ∈ all.map key ↔ a < b ∧ reasons s (analyzable c files) a b ≠ []) ∧
      (∀ p ∈ all, p = placePair s (analyzable c files) p.first p.second) ∧
      (all.map key).Nodup ∧ all.Pairwise Outranks := by
  have hchosen := nodup_analyzable c hpaths
  have hevidence : ∀ p ∈ placeEvidence s (analyzable c files), p.weight.isFinite := by
    intro p hp
    obtain ⟨a, b, -, r, hr, rfl⟩ := exists_of_mem_placeEvidence hchosen hp
    exact hfinite r hr
  have hsums : ∀ p ∈ placeEvidence s (analyzable c files), NoOverflow _ := fun p hp =>
    noOverflow_placeEvidence hchosen hsums hp
  have hall := ranking_aggregates hsums
  refine ⟨ranking (placeEvidence s (analyzable c files)), ?_, fun a b => ?_, fun p hp => ?_,
    hall.keys_nodup, hall.ranked⟩
  · rw [structuralCouplings_eq]
    exact mergePairs_of_noOverflow hevidence hsums (by decide)
  · exact (hall.mem_keys a b).trans (exists_concerns_iff hchosen)
  · have hkey := (hall.mem_keys p.first p.second).1 (List.mem_map_of_mem hp)
    have hlt := ((exists_concerns_iff hchosen).1 hkey).1
    obtain ⟨k, -, rfl⟩ := List.mem_map.1 ((ranking_perm _).mem_iff.1 hp)
    exact mergedOf_placeEvidence hchosen s (Std.ne_of_lt hlt)

/-- The index of a directory refers to one of its files, which shares its stem with its test; a file
elsewhere is not coupled. -/
theorem structuralCouplings_exact_of_button :
    let s : CouplingSettings := {}
    let button : SourceFile :=
      { path := "src/Button.tsx", content := some "export const Button = 1;\n" }
    let test : SourceFile :=
      { path := "src/Button.test.tsx", content := some "import { Button } from './Button';\n" }
    let index : SourceFile :=
      { path := "src/index.ts", content := some "export * from './Button';\n" }
    let other : SourceFile := { path := "lone/thing.ts" }
    let files := [button, test, index, other]
    (files.map (·.path)).Nodup ∧ (∀ r ∈ placeWeights s, r.2.isFinite) ∧
      (∀ a ∈ (analyzable .standard files).map (·.path),
        ∀ b ∈ (analyzable .standard files).map (·.path), a < b →
        NoOverflow ((reasons s (analyzable .standard files) a b).map Prod.snd)) ∧
      ∃ all : List CouplingPair, structuralCouplings .standard s files = .ok (all.take 100) ∧
        ("src/Button.tsx", "src/index.ts") ∈ all.map key ∧
          ("lone/thing.ts", "src/index.ts") ∉ all.map key := by
  intro s button test index other files
  have hpaths : (files.map (·.path)).Nodup := by decide
  have hfinite : ∀ r ∈ placeWeights s, r.2.isFinite := by decide +kernel
  have hall : analyzable .standard files = files := by decide +kernel
  have hsums : ∀ a ∈ (analyzable .standard files).map (·.path),
      ∀ b ∈ (analyzable .standard files).map (·.path),
      a < b → NoOverflow ((reasons s (analyzable .standard files) a b).map Prod.snd) := by
    rw [hall]
    decide +kernel
  obtain ⟨all, hcouplings, hkeys, -⟩ :=
    structuralCouplings_exact .standard s files hpaths hfinite hsums
  refine ⟨hpaths, hfinite, hsums, all, hcouplings, (hkeys _ _).2 ?_,
    fun h => ((hkeys _ _).1 h).2 ?_⟩
  · rw [hall]
    decide +kernel
  · rw [hall]
    decide +kernel

end Coupling
end CodeSurvey
