/-
# Which signals count

In a repository of too many files the commits do not count (`signals_of_many_files`). Otherwise,
where the commits give enough pairs, the places of the files do not count
(`signals_of_enough_pairs`), and merging changes nothing of the pairs that the commits give: they
are the only evidence for their files, so that each is merged with itself alone, and they are in
order of rank already (`mergePairs_of_settled`).

Whichever signals count, the couplings of a repository have the shape of couplings
(`signals_isCoupling`, `mergePairs_isRanking`).
-/

import CodeSurvey.Proofs.Coupling.Idempotence
import CodeSurvey.Proofs.Coupling.Shape
import CodeSurvey.Proofs.Journal

namespace CodeSurvey

namespace Coupling

/-- Whether merging has nothing to change about a pair: its weight is a finite number without a
negative sign, its lists are in strict order, and its date is not empty. -/
structure IsSettled (p : CouplingPair) : Prop where
  weight_finite : ∃ m, p.weight = .finite false m
  authors_sorted : p.authors.Pairwise (· < ·)
  sources_sorted : p.sources.Pairwise (· < ·)
  lastChanged_ne : p.lastChanged ≠ some ""

/-- A settled coupling is merged already. -/
theorem IsSettled.isMerged {p : CouplingPair} (h : IsSettled p) (hp : IsCoupling p) :
    IsMerged p where
  keyOf_eq := hp.keyOf_eq
  merges_alone := by
    obtain ⟨m, hm⟩ := h.weight_finite
    refine mergeEvidence_singleton ?_ h.authors_sorted h.sources_sorted h.lastChanged_ne
    rw [hm, totalWeight_singleton rfl, Binary64.sum_singleton]

/-- **Merging changes nothing of settled couplings of different files in order of rank.** -/
theorem mergePairs_of_settled (limit : Int) {ps : List CouplingPair} (hps : ∀ p ∈ ps, IsCoupling p)
    (hsettled : ∀ p ∈ ps, IsSettled p) (hkeys : (ps.map key).Nodup)
    (hranked : ps.Pairwise Outranks) : mergePairs limit ps = .ok (upTo limit ps) :=
  mergePairs_of_perm limit (List.Perm.refl ps) (fun p hp => (hsettled p hp).isMerged (hps p hp))
    (fun p hp => Binary64.ne_nan_of_zero_le (hps p hp).weight_nonneg) hkeys hranked

/-- What commits say of two files is settled. -/
theorem Tells.isSettled {s : CouplingSettings} {commits : List Commit} {p : CouplingPair}
    (h : Tells s commits p) : IsSettled p := by
  have hle := h.coChanges_le_divisor
  have hone := h.one_le_coChanges
  refine ⟨?_, h.authors_sorted, ?_, ?_⟩
  · rw [h.weight_eq]
    exact Binary64.ofRatio_eq_finite (by omega) hle
  · rw [h.sources_eq]
    exact List.pairwise_singleton _ _
  · intro hempty
    have hlatest := h.lastChanged_isLatest
    rw [hempty] at hlatest
    exact hlatest.2.1 rfl

/-- The couplings of commits are settled couplings of different files in order of rank. -/
theorem commitCouplings_settled {s : CouplingSettings} (hs : s.InRange) {commits : List Commit}
    {pairs : List CouplingPair} (h : commitCouplings s commits = .ok pairs) :
    (∀ p ∈ pairs, IsCoupling p) ∧ (∀ p ∈ pairs, IsSettled p) ∧ (pairs.map key).Nodup ∧
      pairs.Pairwise Outranks := by
  have hstrength := Binary64.ne_nan_of_zero_le hs.minStrength
  have hcoupling : ∀ p ∈ pairs, IsCoupling p := fun p hp => by
    obtain ⟨recent, htells⟩ := tells_of_commitCouplings hstrength h hp
    exact htells.isCoupling
  have hsettled : ∀ p ∈ pairs, IsSettled p := fun p hp => by
    obtain ⟨recent, htells⟩ := tells_of_commitCouplings hstrength h hp
    exact htells.isSettled
  obtain ⟨recent, rfl⟩ := commitCouplings_eq_ok hstrength h
  generalize hps : (((changedPairs s recent).filter fun k => Suffices s recent k.1 k.2).map
    (coupling s recent)) = ps
    at *
  have hperm : (rank ps).Perm ps := List.mergeSort_perm _ _
  have hkeys : (ps.map key).Nodup := by
    have hmap : ps.map key = (changedPairs s recent).filter fun k => Suffices s recent k.1 k.2 := by
      rw [← hps, List.map_map]
      exact (List.map_congr_left fun k _ => key_coupling s recent k).trans (List.map_id _)
    rw [hmap]
    exact (nodup_eraseDups _).filter _
  have hdefined : ∀ p ∈ ps, p.weight ≠ .nan := fun p hp =>
    Binary64.ne_nan_of_zero_le (hcoupling p (hperm.mem_iff.2 hp)).weight_nonneg
  exact ⟨hcoupling, hsettled, (hperm.map key).nodup_iff.2 hkeys,
    pairwise_rank_of_defined hdefined hkeys⟩

variable (c : Classification)

/-- Without commits there are no couplings of commits. -/
theorem commitCouplings_nil (s : CouplingSettings) : commitCouplings s [] = .ok [] := by
  have hwindow : window s [] = .ok (upTo s.maxCommits (latestFirst (·.date) [])) := by
    have hnone : newest? [] = none := rfl
    rw [window, List.filterMap_nil, hnone]
    rfl
  have hempty : upTo s.maxCommits (latestFirst Commit.date []) = [] := by
    rw [latestFirst, List.mergeSort_nil, upTo]
    split <;> exact List.take_nil
  rw [commitCouplings, hwindow, hempty]
  show Except.ok (rank []) = _
  rw [rank, List.mergeSort_nil]

/-- **Which signals count.** The commits do if there are any and the files are not too many, and the
places of the files do unless the commits give enough pairs. -/
theorem signals_eq (s : CouplingSettings) (commits : List Commit) (files : List SourceFile) :
    signals c s commits files =
      if commits ≠ [] ∧ files.length ≤ s.structuralFiles then do
        let pairs ← commitCouplings s commits
        if (pairs.length : Int) < s.sparsePairs then do
          let structural ← structuralCouplings c s files
          return [pairs, structural]
        else return [pairs]
      else do
        let structural ← structuralCouplings c s files
        return [structural] := by
  by_cases huse : commits ≠ [] ∧ files.length ≤ s.structuralFiles
  · have hbool : (!commits.isEmpty && !decide (s.structuralFiles < files.length)) =
        true := by simp [huse]
    rw [if_pos huse]
    unfold signals
    simp only [hbool, if_true, Bool.not_true, Bool.false_or, decide_eq_true_eq]
    congr 1
    funext pairs
    split <;> rfl
  · have hbool : (!commits.isEmpty && !decide (s.structuralFiles < files.length)) = false := by
      rw [Bool.eq_false_iff]
      exact fun h => huse (by simpa using h)
    rw [if_neg huse]
    unfold signals
    simp only [hbool, Bool.false_eq_true, if_false, Bool.not_false, Bool.true_or, if_true]
    rfl

/-- In a repository of too many files only their places count. -/
theorem signals_of_many_files {s : CouplingSettings} {files : List SourceFile}
    (h : s.structuralFiles < files.length) (commits : List Commit) :
    signals c s commits files = (do
      let structural ← structuralCouplings c s files
      return [structural]) := by
  rw [signals_eq, if_neg fun huse => by omega]

/-- Where the files are not too many and the commits give enough pairs, only the commits count. -/
theorem signals_of_enough_pairs {s : CouplingSettings} (hs : s.InRange) {commits : List Commit}
    {files : List SourceFile} (hfew : files.length ≤ s.structuralFiles) {pairs : List CouplingPair}
    (hpairs : commitCouplings s commits = .ok pairs) (henough : s.sparsePairs ≤ pairs.length) :
    signals c s commits files = .ok [pairs] := by
  have hsparse := hs.sparsePairs
  have hcommits : commits ≠ [] := by
    rintro rfl
    rw [commitCouplings_nil, Except.ok.injEq] at hpairs
    rw [← hpairs, List.length_nil] at henough
    omega
  rw [signals_eq, if_pos ⟨hcommits, hfew⟩, hpairs]
  exact if_neg (by omega)

/-- **Whichever signals count, they are lists of couplings.** -/
theorem signals_isCoupling {s : CouplingSettings} (hs : s.InRange) {commits : List Commit}
    {files : List SourceFile} (hpaths : (files.map (·.path)).Nodup)
    {given : List (List CouplingPair)} (h : signals c s commits files = .ok given) :
    ∀ p ∈ given.flatten, IsCoupling p := by
  have hcommits : ∀ {pairs}, commitCouplings s commits = .ok pairs → ∀ p ∈ pairs, IsCoupling p :=
    fun hpairs =>
    (commitCouplings_settled hs hpairs).1
  have hplaces : ∀ {pairs}, structuralCouplings c s files = .ok pairs → ∀ p ∈ pairs, IsCoupling p :=
    fun hpairs =>
    (structuralCouplings_isRanking hs hpaths hpairs).couplings
  rw [signals_eq] at h
  split at h
  · obtain ⟨pairs, hpairs, h⟩ := Outcome.bind_eq_ok.1 h
    split at h
    · obtain ⟨structural, hstructural, h⟩ := Outcome.bind_eq_ok.1 h
      cases h
      simpa using fun p hp => hp.elim (hcommits hpairs p) (hplaces hstructural p)
    · cases h
      simpa using hcommits hpairs
  · obtain ⟨structural, hstructural, h⟩ := Outcome.bind_eq_ok.1 h
    cases h
    simpa using hplaces hstructural

/-- The couplings of a repository are the signals that count, merged. -/
theorem value_compute (s : CouplingSettings) (commits : List Commit) (files : List SourceFile) :
    (compute c s commits files).outcome.value = signals c s commits files >>= merge s := by
  unfold compute
  rw [Attempt.outcome_bind, Recorded.value_bind]
  cases hsignals : signals c s commits files with
  | error e => rfl
  | ok given =>
    show (ExceptT.mk (pure (merge s given)) >>= _ : Attempt (List CouplingPair)).outcome.value =
        merge s given
    rw [Attempt.outcome_bind, Recorded.value_bind]
    cases hmerge : merge s given with
    | error e => rfl
    | ok merged => rfl

/-- **Which signals count, and the shape of couplings.** With settings in their ranges and files of
distinct paths: if the files are too many, the couplings do not depend on the commits. If they are
not and the commits give enough pairs, the couplings are the first of these pairs, as many as the
limit allows, whatever the files are. In all cases the couplings are of different files in order,
with weights that are not negative and known kinds of evidence, in strict order of rank, and no more
than the limit allows. -/
theorem compute_selects_signals {s : Settings} (hs : s.InRange)
    (commits : List Commit) {files : List SourceFile} (hpaths : (files.map (·.path)).Nodup) :
    (s.coupling.structuralFiles < files.length →
      ∀ commits', compute c s.coupling commits' files = compute c s.coupling commits files) ∧
    (∀ pairs, commitCouplings s.coupling commits = .ok pairs →
      s.coupling.sparsePairs ≤ pairs.length →
      ∀ files' : List SourceFile, files'.length ≤ s.coupling.structuralFiles →
        (compute c s.coupling commits files').outcome.value =
          .ok (pairs.take s.coupling.maxPairs.toNat)) ∧
    ∀ out, (compute c s.coupling commits files).outcome.value = .ok out →
      (∀ p ∈ out, p.first < p.second ∧ Binary64.zero.le p.weight ∧ p.sources ≠ [] ∧
        p.sources.Pairwise (· < ·) ∧ p.sources ⊆ ["commits", "directory", "index", "naming"]) ∧
      (out.map key).Nodup ∧ out.Pairwise Outranks ∧ (out.length : Int) ≤ s.coupling.maxPairs := by
  have hrange := hs.coupling
  have hlimit := Int.le_of_lt hrange.maxPairs
  refine ⟨fun hmany commits' => ?_, fun pairs hpairs henough files' hfew => ?_, fun out hout => ?_⟩
  · rw [compute, signals_of_many_files c hmany, compute, signals_of_many_files c hmany]
  · obtain ⟨hcouplings, hsettled, hkeys, hranked⟩ := commitCouplings_settled hrange hpairs
    rw [value_compute, signals_of_enough_pairs c hrange hfew hpairs henough,
      ← upTo_of_nonneg hlimit,
      ← mergePairs_of_settled s.coupling.maxPairs hcouplings hsettled hkeys hranked]
    show mergePairs _ (pairs ++ []) = _
    rw [List.append_nil]
  · rw [value_compute] at hout
    obtain ⟨given, hgiven, hmerge⟩ := Outcome.bind_eq_ok.1 hout
    have hranking := mergePairs_isRanking hlimit (signals_isCoupling c hrange hpaths hgiven) hmerge
    refine ⟨fun p hp => ?_, hranking.keys_nodup, hranking.ranked, hranking.length_le⟩
    have hp := hranking.couplings p hp
    exact ⟨hp.ordered, hp.weight_nonneg, hp.sources_ne_nil, hp.sources_sorted, hp.sources_known⟩

/-- Settings of which one file is the most for which commits count: three files are coupled by their
places, whatever the commits are, and one pair is left. -/
theorem compute_selects_signals_of_low_threshold :
    let text := "coupling:\n  structural_file_threshold: 1\n  max_pairs: 1\n"
    let files : List SourceFile :=
      [{ path := "src/a.ts" }, { path := "src/b.ts" }, { path := "src/c.ts" }]
    ∃ s, Settings.ofText Yaml.load Settings.fileName text = .ok s ∧ s.InRange ∧
      (files.map (·.path)).Nodup ∧ s.coupling.structuralFiles < files.length ∧
      ∀ commits, compute .standard s.coupling commits files =
        compute .standard s.coupling [] files ∧
        ∀ out, (compute .standard s.coupling commits files).outcome.value = .ok out →
          (out.length : Int) ≤ 1 := by
  intro text files
  have hread : ((Settings.ofText Yaml.load Settings.fileName text).toOption.map fun s =>
      (s.coupling.structuralFiles, s.coupling.maxPairs)) = some (1, 1) := by decide +kernel
  have hpaths : (files.map (·.path)).Nodup := by decide
  obtain ⟨s, hs, hboth⟩ := Outcome.exists_ok_of_toOption_map hread
  obtain ⟨hthreshold, hlimit⟩ := Prod.mk.inj hboth
  have hmany : s.coupling.structuralFiles < files.length := by
    rw [hthreshold]
    decide
  have hrange := Settings.ofText_inRange hs
  refine ⟨s, hs, hrange, hpaths, hmany, fun commits => ⟨?_, fun out hout => ?_⟩⟩
  · exact (compute_selects_signals .standard hrange [] hpaths).1 hmany commits
  · rw [← hlimit]
    exact ((compute_selects_signals .standard hrange commits hpaths).2.2 out hout).2.2.2

end Coupling
end CodeSurvey
