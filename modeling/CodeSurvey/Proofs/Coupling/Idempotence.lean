/-
# Merging again

What was merged is merged already. A pair stays as it is when it is merged alone if its files are in
order, its weight is its own total, its lists are in strict order and its date is not empty
(`mergeEvidence_singleton`), and every pair that comes of merging is so, whatever it was merged from
(`mergedOf_isMerged`): its weight was rounded once, and rounding once more changes nothing. Pairs of
this kind with different files are merged each alone, in whatever order they come, and are put back
in their one order of rank (`mergePairs_of_perm`). So signals that hold the pairs of a merged list
between them merge into this list (`merge_idempotent`).
-/

import CodeSurvey.Proofs.Coupling.Permutation
import CodeSurvey.Proofs.Number.Extended

namespace CodeSurvey
namespace Coupling

open Binary64 (NoOverflow)

/-- Whether merging a pair alone changes nothing about it: its files are in order, and it
holds all that it says. -/
structure IsMerged (p : CouplingPair) : Prop where
  keyOf_eq : keyOf p = key p
  merges_alone : mergeEvidence (key p) [p] = .ok p

/-- A finite weight alone has a total. -/
theorem totalWeight_singleton {w : Binary64} (hw : w.isFinite) :
    totalWeight [w] = .ok (Binary64.sum [w]) := by
  have hfinite : ∀ v ∈ [w], v.isFinite := fun v hv => by
    rw [List.mem_singleton.1 hv]
    exact hw
  exact totalWeight_of_noOverflow hfinite (Binary64.noOverflow_singleton hw)

/-- A pair merged with nothing else stays as it is, if its weight is its own total, its lists are in
strict order and its date is not empty. -/
theorem mergeEvidence_singleton {p : CouplingPair} (hweight : totalWeight [p.weight] = .ok p.weight)
    (hauthors : p.authors.Pairwise (· < ·)) (hsources : p.sources.Pairwise (· < ·))
    (hdate : p.lastChanged ≠ some "") : mergeEvidence (key p) [p] = .ok p := by
  have hdates : [p].filterMap (·.lastChanged) = p.lastChanged.toList := by
    cases hlast : p.lastChanged <;> simp [hlast]
  have hchanges : total ([p].map (·.coChanges)) = p.coChanges := Int.add_zero _
  rw [mergeEvidence, List.map_singleton, hweight, hdates, latestDate_toList hdate, hchanges,
    List.flatMap_singleton, List.flatMap_singleton, Text.sortedDistinct_of_pairwise hauthors,
    Text.sortedDistinct_of_pairwise hsources]
  rfl

/-- **What comes of merging is merged.** -/
theorem mergedOf_isMerged {ps : List CouplingPair} {k : String × String} (hk : k ∈ keys ps)
    (h : NoOverflow ((evidenceFor ps k.1 k.2).map (·.weight))) : IsMerged (mergedOf ps k) where
  keyOf_eq := by
    rw [key_mergedOf]
    exact (keyOf_eq_iff (le_of_mem_keys hk) _).2 (by simp [concerns, mergedOf])
  merges_alone := by
    have hmerges : Merges ps (mergedOf ps k) := mergedOf_merges (le_of_mem_keys hk)
    refine mergeEvidence_singleton ?_ hmerges.authors_sorted hmerges.sources_sorted fun hempty => ?_
    · rw [weight_mergedOf, totalWeight_singleton (Binary64.isFinite_sum h), Binary64.sum_sum h]
    · have hlatest := hmerges.lastChanged_isLatest
      rw [hempty] at hlatest
      exact hlatest.2.1 rfl

/-- **Merging changes nothing of merged pairs of different files in order of rank,** and finds this
order whatever order they come in. -/
theorem mergePairs_of_perm (limit : Int) {ps qs : List CouplingPair} (hperm : qs.Perm ps)
    (hmerged : ∀ p ∈ ps, IsMerged p) (hdefined : ∀ p ∈ ps, p.weight ≠ .nan)
    (hkeys : (ps.map key).Nodup) (hranked : ps.Pairwise Outranks) :
    mergePairs limit qs = .ok (upTo limit ps) := by
  have hmem : ∀ {q}, q ∈ qs → q ∈ ps := hperm.mem_iff.1
  have hkeyOf : qs.map keyOf = qs.map key :=
    List.map_congr_left fun q hq => (hmerged q (hmem hq)).keyOf_eq
  have hkeys' : (qs.map key).Nodup := (hperm.map key).nodup_iff.2 hkeys
  have halone : ((keys qs).map fun k => (k, evidenceFor qs k.1 k.2)).mapM
      (fun group => mergeEvidence group.1 group.2) = .ok qs := by
    rw [keys, hkeyOf, eraseDups_of_nodup hkeys', Outcome.mapM_eq_ok_iff, List.forall₂_map_left_iff,
      List.forall₂_map_left_iff, List.forall₂_same]
    intro q hq
    have hown : evidenceFor qs q.first q.second = [q] := by
      rw [← evidenceFor_keyOf, ← filter_keyOf (k := keyOf q) (orderedKey_le _ _)]
      exact filter_key_eq_singleton (hkeyOf ▸ hkeys') hq
    rw [key, hown]
    exact (hmerged q (hmem hq)).merges_alone
  have hrank : rank qs = ps := by
    have hrankPerm : (rank qs).Perm qs := List.mergeSort_perm _ _
    refine eq_of_pairwise_of_mem_iff (fun p q => Outranks.asymm) ?_ hranked fun p =>
      (hrankPerm.trans hperm).mem_iff
    exact pairwise_rank_of_defined (fun q hq => hdefined q (hmem hq)) hkeys'
  rw [mergePairs, groupByKey_eq, halone]
  show Except.ok (upTo limit (rank qs)) = _
  rw [hrank]

/-- **Merging again changes nothing.** If the weights are finite and those given for each two files
have a sum, the signals merge into a list that merges into itself, and so do signals that hold the
pairs of this list between them, however they share them and in whatever order they give them. -/
theorem merge_idempotent (s : CouplingSettings) (signals : List (List CouplingPair))
    (hlimit : 1 ≤ s.maxPairs) (hfinite : ∀ p ∈ signals.flatten, p.weight.isFinite)
    (hsums : ∀ p ∈ signals.flatten,
      NoOverflow ((evidenceFor signals.flatten p.first p.second).map (·.weight))) :
    ∃ out, merge s signals = .ok out ∧ merge s [out] = .ok out ∧
      ∀ given : List (List CouplingPair), given.flatten.Perm out → merge s given = .ok out := by
  have hall := ranking_aggregates hsums
  have hlimit' : 0 ≤ s.maxPairs := by omega
  have hsub : ((ranking signals.flatten).take s.maxPairs.toNat).Sublist (ranking signals.flatten) :=
    List.take_sublist _ _
  have hmerged : ∀ m ∈ ranking signals.flatten, IsMerged m ∧ m.weight.isFinite := by
    intro m hm
    obtain ⟨k, hk, rfl⟩ := List.mem_map.1 ((ranking_perm _).mem_iff.1 hm)
    have hsum := noOverflow_of_mem_keys hsums hk
    refine ⟨mergedOf_isMerged hk hsum, ?_⟩
    rw [weight_mergedOf]
    exact Binary64.isFinite_sum hsum
  have hagain : ∀ given : List (List CouplingPair),
      given.flatten.Perm ((ranking signals.flatten).take s.maxPairs.toNat) →
        merge s given = .ok ((ranking signals.flatten).take s.maxPairs.toNat) := by
    intro given hgiven
    rw [merge, mergePairs_of_perm s.maxPairs hgiven (fun m hm => (hmerged m (hsub.subset hm)).1)
      (fun m hm => Binary64.ne_nan_of_isFinite (hmerged m (hsub.subset hm)).2)
      (hall.keys_nodup.sublist (hsub.map key)) (hall.ranked.sublist hsub), upTo_of_nonneg hlimit',
      List.take_take, Nat.min_self]
  refine ⟨_, mergePairs_of_noOverflow hfinite hsums hlimit', hagain _ ?_, hagain⟩
  rw [List.flatten_singleton]

/-- Three signals, one weight below zero and one pair beyond the limit; the merged list is given
again by two signals, the pairs that rank first by the second one. -/
theorem merge_idempotent_of_three_signals :
    let s : CouplingSettings := { maxPairs := 2 }
    let signals : List (List CouplingPair) :=
      [[{ first := "src/b.py", second := "src/a.py", weight := .ofInt 2, authors := ["Cyd", "Ada"],
          lastChanged := some "2024-05-02T04:00:00Z" },
        { first := "src/c.py", second := "src/d.py", weight := .ofInt 0 }],
        [{ first := "src/a.py", second := "src/c.py", weight := .ofInt (-4),
           sources := ["naming"] }],
        [{ first := "src/a.py", second := "src/b.py", weight := .ofInt (-3), coChanges := 3,
           lastChanged := some "" }]]
    1 ≤ s.maxPairs ∧ (∀ p ∈ signals.flatten, p.weight.isFinite) ∧
      (∀ p ∈ signals.flatten,
        NoOverflow ((evidenceFor signals.flatten p.first p.second).map (·.weight))) ∧
      ∃ out, merge s signals = .ok out ∧ merge s [out] = .ok out ∧
        merge s [out.drop 1, out.take 1] = .ok out := by
  intro s signals
  have hlimit : 1 ≤ s.maxPairs := by decide
  have hfinite : ∀ p ∈ signals.flatten, p.weight.isFinite := by decide +kernel
  have hsums : ∀ p ∈ signals.flatten,
      NoOverflow ((evidenceFor signals.flatten p.first p.second).map (·.weight)) := by
        decide +kernel
  obtain ⟨out, hmerge, hagain, hshared⟩ := merge_idempotent s signals hlimit hfinite hsums
  refine ⟨hlimit, hfinite, hsums, out, hmerge, hagain, hshared _ ?_⟩
  have hperm : (out.drop 1 ++ out.take 1).Perm (out.take 1 ++ out.drop 1) := List.perm_append_comm
  rw [List.take_append_drop] at hperm
  rwa [List.flatten_cons, List.flatten_singleton]

end Coupling
end CodeSurvey
