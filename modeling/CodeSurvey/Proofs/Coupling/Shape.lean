/-
# The shape of couplings

A coupling names two files in order, has a weight that is not negative, and tells which kinds of
evidence there are for it (`IsCoupling`). Merging keeps this shape: what is merged from couplings is
a coupling again (`mergeEvidence_isCoupling`), whether or not its weight is finite, and the merged
list has each two files once, in strict order of rank, and no more of them than the limit allows
(`mergePairs_isRanking`).

The evidence of commits has this shape (`Tells.isCoupling`), and so has each piece of evidence that
places give (`structuralCouplings_isRanking`).
-/

import CodeSurvey.Coupling.Compute
import CodeSurvey.Proofs.Coupling.CoChange
import CodeSurvey.Proofs.Coupling.Places
import CodeSurvey.Proofs.Settings

namespace CodeSurvey
namespace Coupling

/-- The kinds of evidence, in order. -/
def kinds : List String := ["commits", "directory", "index", "naming"]

/-- Whether a pair names two files in order, has a weight that is not negative, and
tells of its evidence. -/
structure IsCoupling (p : CouplingPair) : Prop where
  ordered : p.first < p.second
  weight_nonneg : Binary64.zero.le p.weight
  sources_ne_nil : p.sources ≠ []
  sources_sorted : p.sources.Pairwise (· < ·)
  sources_known : p.sources ⊆ kinds

/-- Whether a list has couplings of different files in strict order of rank, up to a limit. -/
structure IsRanking (limit : Int) (out : List CouplingPair) : Prop where
  couplings : ∀ p ∈ out, IsCoupling p
  keys_nodup : (out.map key).Nodup
  ranked : out.Pairwise Outranks
  length_le : (out.length : Int) ≤ limit

/-- The key of a coupling is its files. -/
theorem IsCoupling.keyOf_eq {p : CouplingPair} (h : IsCoupling p) : keyOf p = key p := by
  rw [keyOf, orderedKey, if_neg (String.lt_asymm h.ordered), key]

/-- Each merged pair comes from the evidence for its files. -/
theorem mergePairs_eq_ok {limit : Int} {ps out : List CouplingPair}
    (h : mergePairs limit ps = .ok out) :
    ∃ merged, List.Forall₂ (fun k m => mergeEvidence k (evidenceFor ps k.1 k.2) = .ok m)
      (keys ps) merged ∧ out = upTo limit (rank merged) := by
  obtain ⟨merged, hmerged, h⟩ := Outcome.bind_eq_ok.1 h
  rw [groupByKey_eq, Outcome.mapM_eq_ok_iff, List.forall₂_map_left_iff] at hmerged
  exact ⟨merged, hmerged, (Except.ok.inj h).symm⟩

/-- Weights that are not negative have no negative total. -/
theorem zero_le_of_totalWeight {ws : List Binary64} (hws : ∀ w ∈ ws, Binary64.zero.le w)
    {total : Binary64} (h : totalWeight ws = .ok total) : Binary64.zero.le total := by
  unfold totalWeight at h
  cases hsum : Binary64.sumInOrder (ws.mergeSort fun a b => !b.lt a) with
  | error e =>
    rw [hsum] at h
    cases h
  | ok x =>
    rw [hsum] at h
    cases h
    exact Binary64.zero_le_of_sumInOrder (fun w hw => hws w (List.mem_mergeSort.1 hw)) hsum

/-- **What is merged from couplings is a coupling.** -/
theorem mergeEvidence_isCoupling {ps : List CouplingPair} (hps : ∀ p ∈ ps, IsCoupling p)
    {k : String × String} (hk : k ∈ keys ps) {m : CouplingPair}
    (h : mergeEvidence k (evidenceFor ps k.1 k.2) = .ok m) : key m = k ∧ IsCoupling m := by
  obtain ⟨p, hp, hkey⟩ := List.mem_map.1 (List.mem_eraseDups.1 hk)
  have hevidence : ∀ q ∈ evidenceFor ps k.1 k.2, IsCoupling q :=
    fun q hq => hps q (List.mem_filter.1 hq).1
  have hmem : p ∈ evidenceFor ps k.1 k.2 :=
    List.mem_filter.2 ⟨hp, (keyOf_eq_iff (le_of_mem_keys hk) p).1 hkey⟩
  obtain ⟨weight, hweight, h⟩ := Outcome.bind_eq_ok.1 h
  cases h
  rw [(hps p hp).keyOf_eq] at hkey
  refine ⟨rfl, ?_, ?_, ?_, Text.pairwise_sortedDistinct _, ?_⟩
  · rw [← hkey]
    exact (hps p hp).ordered
  · refine zero_le_of_totalWeight (fun w hw => ?_) hweight
    obtain ⟨q, hq, rfl⟩ := List.mem_map.1 hw
    exact (hevidence q hq).weight_nonneg
  · obtain ⟨s, hs⟩ := List.exists_mem_of_ne_nil _ (hps p hp).sources_ne_nil
    exact List.ne_nil_of_mem (Text.mem_sortedDistinct.2 (List.mem_flatMap.2 ⟨p, hmem, hs⟩))
  · intro s hs
    obtain ⟨q, hq, hsource⟩ := List.mem_flatMap.1 (Text.mem_sortedDistinct.1 hs)
    exact (hevidence q hq).sources_known hsource

/-- The keys of merged couplings are those of the evidence. -/
theorem map_key_of_merged {ps : List CouplingPair} (hps : ∀ p ∈ ps, IsCoupling p)
    {ks : List (String × String)} (hks : ks ⊆ keys ps) {merged : List CouplingPair}
    (h : List.Forall₂ (fun k m => mergeEvidence k (evidenceFor ps k.1 k.2) = .ok m) ks merged) :
    merged.map key = ks ∧ ∀ m ∈ merged, IsCoupling m := by
  induction h with
  | nil => exact ⟨rfl, fun m hm => absurd hm List.not_mem_nil⟩
  | cons hm hrest ih =>
    rw [List.cons_subset] at hks
    obtain ⟨hkey, hcoupling⟩ := mergeEvidence_isCoupling hps hks.1 hm
    obtain ⟨hkeys, hcouplings⟩ := ih hks.2
    refine ⟨by rw [List.map_cons, hkey, hkeys], fun n hn => ?_⟩
    rcases List.mem_cons.1 hn with rfl | hn
    · exact hcoupling
    · exact hcouplings n hn

/-- What a limit leaves of a ranked list of couplings of different files. -/
theorem isRanking_upTo {limit : Int} (hlimit : 0 ≤ limit) {ps : List CouplingPair}
    (hps : ∀ p ∈ ps, IsCoupling p) (hkeys : (ps.map key).Nodup) :
    IsRanking limit (upTo limit (rank ps)) := by
  have hperm : (rank ps).Perm ps := List.mergeSort_perm _ _
  have hsub := (upTo_isPrefix limit (rank ps)).sublist
  refine ⟨fun p hp => hps p (hperm.mem_iff.1 (hsub.subset hp)), ?_, ?_, ?_⟩
  · exact ((hperm.map key).nodup_iff.2 hkeys).sublist (hsub.map key)
  · exact (pairwise_rank_of_defined
      (fun p hp => Binary64.ne_nan_of_zero_le (hps p hp).weight_nonneg) hkeys).sublist hsub
  · rw [upTo_of_nonneg hlimit, List.length_take]
    omega

/-- **Merging keeps the shape of couplings.** -/
theorem mergePairs_isRanking {limit : Int} (hlimit : 0 ≤ limit) {ps out : List CouplingPair}
    (hps : ∀ p ∈ ps, IsCoupling p) (h : mergePairs limit ps = .ok out) : IsRanking limit out := by
  obtain ⟨merged, hmerged, rfl⟩ := mergePairs_eq_ok h
  obtain ⟨hkeys, hcouplings⟩ := map_key_of_merged hps (List.Subset.refl _) hmerged
  exact isRanking_upTo hlimit hcouplings (hkeys ▸ nodup_eraseDups _)

/-- The couplings of commits are those of the pairs of files with enough evidence, ranked. -/
theorem commitCouplings_eq_ok {s : CouplingSettings} (hstrength : s.minStrength ≠ .nan)
    {commits : List Commit} {pairs : List CouplingPair}
    (h : commitCouplings s commits = .ok pairs) :
    ∃ recent, pairs = rank
      (((changedPairs s recent).filter fun k => Suffices s recent k.1 k.2).map
        (coupling s recent)) := by
  obtain ⟨recent, -, h⟩ := Outcome.bind_eq_ok.1 h
  refine ⟨recent, ?_⟩
  rw [← Except.ok.inj h, filterMap_coupling? hstrength]

/-- A pair of the couplings of commits tells what the commits of a window say. -/
theorem tells_of_commitCouplings {s : CouplingSettings} (hstrength : s.minStrength ≠ .nan)
    {commits : List Commit} {pairs : List CouplingPair} (h : commitCouplings s commits = .ok pairs)
    {p : CouplingPair} (hp : p ∈ pairs) : ∃ recent, Tells s recent p := by
  obtain ⟨recent, rfl⟩ := commitCouplings_eq_ok hstrength h
  obtain ⟨k, hk, rfl⟩ := List.mem_map.1 (List.mem_mergeSort.1 hp)
  obtain ⟨hchanged, hsuffices⟩ := List.mem_filter.1 hk
  exact ⟨recent, coupling_tells hchanged (of_decide_eq_true hsuffices)⟩

theorem Tells.isCoupling {s : CouplingSettings} {commits : List Commit} {p : CouplingPair}
    (h : Tells s commits p) : IsCoupling p := by
  refine ⟨h.ordered, h.weight_nonneg, ?_, ?_, ?_⟩ <;> rw [h.sources_eq]
  · exact List.cons_ne_nil _ _
  · exact List.pairwise_singleton _ _
  · exact List.cons_subset.2 ⟨by decide, List.nil_subset _⟩

/-- One piece of evidence for two different files is a coupling. -/
theorem evidence_isCoupling {a b : String} (hne : a ≠ b) {weight : Binary64}
    (hweight : Binary64.zero.le weight) {source : String} (hsource : source ∈ kinds) :
    IsCoupling (evidence a b weight source) where
  ordered := evidence_ordered weight source hne
  weight_nonneg := hweight
  sources_ne_nil := List.cons_ne_nil _ _
  sources_sorted := List.pairwise_singleton _ _
  sources_known := List.cons_subset.2 ⟨hsource, List.nil_subset _⟩

/-- Where settings are within their ranges, places give known kinds of evidence weights
that are not negative. -/
theorem placeWeights_known {s : CouplingSettings} (hs : s.InRange) :
    ∀ r ∈ placeWeights s, Binary64.zero.le r.2 ∧ r.1 ∈ kinds := by
  intro r hr
  simp only [placeWeights, List.mem_cons, List.not_mem_nil, or_false] at hr
  rcases hr with rfl | rfl | rfl
  · exact ⟨hs.directoryWeight, by simp [kinds]⟩
  · exact ⟨hs.namingWeight, by simp [kinds]⟩
  · exact ⟨hs.indexWeight, by simp [kinds]⟩

/-- **The couplings of places have the shape of couplings.** -/
theorem structuralCouplings_isRanking {c : Classification} {s : CouplingSettings} (hs : s.InRange)
    {files : List SourceFile} (hpaths : (files.map (·.path)).Nodup) {out : List CouplingPair}
    (h : structuralCouplings c s files = .ok out) : IsRanking structuralLimit out := by
  rw [structuralCouplings_eq] at h
  refine mergePairs_isRanking (by decide) (fun p hp => ?_) h
  obtain ⟨a, b, hne, r, hr, rfl⟩ :=
    exists_of_mem_placeEvidence (GraphBuild.nodup_analyzable c hpaths) hp
  obtain ⟨hweight, hsource⟩ := placeWeights_known hs r hr
  exact evidence_isCoupling hne hweight hsource

end Coupling
end CodeSurvey
