/-
# What is said of two files

A pair concerns two files in either order. The key of a pair, its files in order, is the same for
exactly the pairs that concern these files (`keyOf_eq_iff`), so that grouping by key collects the
evidence for each two files (`groupByKey_eq`).

The weights of a group have a sum or leave the range, whatever their order
(`totalWeight_of_noOverflow`, `totalWeight_of_overflow`). Where they have one, the merged pair holds
all that is said of its files (`mergeEvidence_of_noOverflow`, `mergedOf_merges`).
-/

import CodeSurvey.Coupling
import CodeSurvey.Proofs.Keyed
import CodeSurvey.Proofs.Moment
import CodeSurvey.Proofs.Number.Sum
import CodeSurvey.Proofs.Sorting

namespace CodeSurvey
namespace Coupling

open Binary64 (NoOverflow)

/-- Whether a pair is about two files, in either order. -/
def concerns (a b : String) (p : CouplingPair) : Bool :=
  (p.first == a && p.second == b) || (p.first == b && p.second == a)

/-- What is said of two files, in either order. -/
def evidenceFor (ps : List CouplingPair) (a b : String) : List CouplingPair :=
  ps.filter (concerns a b)

/-- The order of two files does not matter to what is said of them. -/
theorem evidenceFor_comm (ps : List CouplingPair) (a b : String) :
    evidenceFor ps a b = evidenceFor ps b a :=
  List.filter_congr fun _ _ => Bool.or_comm _ _

/-- The files of a pair in order. -/
def keyOf (p : CouplingPair) : String × String := orderedKey p.first p.second

theorem orderedKey_le (a b : String) : (orderedKey a b).1 ≤ (orderedKey a b).2 := by
  unfold orderedKey
  split
  · rename_i h
    exact Std.le_of_lt h
  · rename_i h
    exact String.not_lt.1 h

/-- Two files in order are the key of exactly the pairs that concern them. -/
theorem keyOf_eq_iff {a b : String} (h : a ≤ b) (p : CouplingPair) :
    keyOf p = (a, b) ↔ concerns a b p := by
  unfold keyOf orderedKey concerns
  simp only [Bool.or_eq_true, Bool.and_eq_true, beq_iff_eq]
  split
  · rename_i hlt
    rw [Prod.mk.injEq]
    constructor
    · rintro ⟨ha, hb⟩
      exact .inr ⟨hb, ha⟩
    · rintro (⟨rfl, rfl⟩ | ⟨ha, hb⟩)
      · exact absurd hlt (String.not_lt.2 h)
      · exact ⟨hb, ha⟩
  · rename_i hle
    rw [Prod.mk.injEq]
    constructor
    · exact .inl
    · rintro (hab | ⟨rfl, rfl⟩)
      · exact hab
      · have heq : p.first = p.second := String.le_antisymm (String.not_lt.1 hle) h
        exact ⟨heq, heq.symm⟩

/-- The pairs of a key are what is said of its files. -/
theorem filter_keyOf {k : String × String} (h : k.1 ≤ k.2) (ps : List CouplingPair) :
    (ps.filter fun p => keyOf p == k) = evidenceFor ps k.1 k.2 := by
  refine List.filter_congr fun p _ => ?_
  rw [Bool.eq_iff_iff, beq_iff_eq]
  exact keyOf_eq_iff h p

/-- What is said of the files of a pair, in order or not. -/
theorem evidenceFor_keyOf (ps : List CouplingPair) (p : CouplingPair) :
    evidenceFor ps (keyOf p).1 (keyOf p).2 = evidenceFor ps p.first p.second := by
  unfold keyOf orderedKey
  split
  · exact evidenceFor_comm ps p.second p.first
  · rfl

/-- The distinct keys of some pairs, in order of first mention. -/
def keys (ps : List CouplingPair) : List (String × String) := (ps.map keyOf).eraseDups

/-- The files of a key are in order. -/
theorem le_of_mem_keys {ps : List CouplingPair} {k : String × String} (h : k ∈ keys ps) :
    k.1 ≤ k.2 := by
  obtain ⟨p, -, rfl⟩ := List.mem_map.1 (List.mem_eraseDups.1 h)
  exact orderedKey_le p.first p.second

/-- The keys are the two files in order that some pair concerns. -/
theorem mem_keys {ps : List CouplingPair} {a b : String} :
    (a, b) ∈ keys ps ↔ a ≤ b ∧ ∃ p ∈ ps, concerns a b p := by
  constructor
  · intro h
    have hle := le_of_mem_keys h
    obtain ⟨p, hp, hkey⟩ := List.mem_map.1 (List.mem_eraseDups.1 h)
    exact ⟨hle, p, hp, (keyOf_eq_iff hle p).1 hkey⟩
  · rintro ⟨hle, p, hp, hconcerns⟩
    exact List.mem_eraseDups.2 (List.mem_map.2 ⟨p, hp, (keyOf_eq_iff hle p).2 hconcerns⟩)

/-- A group holds what is said of its two files, in order. -/
theorem groupByKey_eq (ps : List CouplingPair) :
    groupByKey ps = (keys ps).map fun k => (k, evidenceFor ps k.1 k.2) := by
  refine (Keyed.foldl_modify_group keyOf ps).trans (List.map_congr_left fun k hk => ?_)
  rw [filter_keyOf (le_of_mem_keys hk)]

/-- Weights that were sorted are in order. -/
theorem pairwise_sortedWeights {ws : List Binary64} (h : ∀ w ∈ ws, w.isFinite) :
    (ws.mergeSort fun a b => !b.lt a).Pairwise fun v w => v.units ≤ w.units := by
  have hsorted : (ws.mergeSort fun a b => !b.lt a).Pairwise fun v w =>
      decide (v.units ≤ w.units) := by
    refine pairwise_mergeSort_of_agrees (fun a ha b hb => ?_) (fun a b c hab hbc =>
      ?_) fun a b => ?_
    · rw [Binary64.lt_of_isFinite (h b hb) (h a ha), ← decide_not, decide_eq_decide]
      exact Int.not_lt
    · exact decide_eq_true (Int.le_trans (of_decide_eq_true hab) (of_decide_eq_true hbc))
    · rw [← Bool.decide_or]
      exact decide_eq_true (Int.le_total _ _)
  exact hsorted.imp fun hvw => of_decide_eq_true hvw

/-- Finite weights that have a sum add up to the number nearest to their exact sum. -/
theorem totalWeight_of_noOverflow {ws : List Binary64} (hws : ∀ w ∈ ws, w.isFinite)
    (h : NoOverflow ws) : totalWeight ws = .ok (Binary64.sum ws) := by
  have hperm : (ws.mergeSort fun a b => !b.lt a).Perm ws := List.mergeSort_perm _ _
  rw [totalWeight, Binary64.sumInOrder_of_noOverflow (fun w hw => hws w (hperm.mem_iff.1 hw))
    (pairwise_sortedWeights hws) ((NoOverflow.perm hperm).2 h), Binary64.sum_perm hperm]
  rfl

/-- Finite weights that have no sum leave the range. -/
theorem totalWeight_of_overflow {ws : List Binary64} (hws : ∀ w ∈ ws, w.isFinite)
    (h : ¬NoOverflow ws) : totalWeight ws = .error (.sum .overflow) := by
  have hperm : (ws.mergeSort fun a b => !b.lt a).Perm ws := List.mergeSort_perm _ _
  rw [totalWeight, Binary64.sumInOrder_of_overflow (fun w hw => hws w (hperm.mem_iff.1 hw))
    (pairwise_sortedWeights hws) fun hfits => h ((NoOverflow.perm hperm).1 hfits)]
  rfl

/-- Evidence has the finite weights of the pairs that it consists of. -/
theorem finite_of_mem_evidence {ps : List CouplingPair} (h : ∀ p ∈ ps, p.weight.isFinite)
    {a b : String} : ∀ w ∈ (evidenceFor ps a b).map (·.weight), w.isFinite := by
  intro w hw
  obtain ⟨p, hp, rfl⟩ := List.mem_map.1 hw
  exact h p (List.mem_filter.1 hp).1

/-- The merged pair of two files in order. -/
def mergedOf (ps : List CouplingPair) (k : String × String) : CouplingPair :=
  let evidence := evidenceFor ps k.1 k.2
  { first := k.1
    second := k.2
    weight := Binary64.sum (evidence.map (·.weight))
    coChanges := total (evidence.map (·.coChanges))
    authors := Text.sortedDistinct (evidence.flatMap (·.authors))
    lastChanged := latestDate (evidence.filterMap (·.lastChanged))
    sources := Text.sortedDistinct (evidence.flatMap (·.sources)) }

theorem key_mergedOf (ps : List CouplingPair) (k : String × String) : key (mergedOf ps k) = k := by
  simp only [key, mergedOf]

theorem weight_mergedOf (ps : List CouplingPair) (k : String × String) :
    (mergedOf ps k).weight = Binary64.sum ((evidenceFor ps k.1 k.2).map (·.weight)) := by
  simp only [mergedOf]

/-- What is said of two files merges into one pair if the weights have a sum. -/
theorem mergeEvidence_of_noOverflow {ps : List CouplingPair} (hfinite : ∀ p ∈ ps, p.weight.isFinite)
    {k : String × String} (h : NoOverflow ((evidenceFor ps k.1 k.2).map (·.weight))) :
    mergeEvidence k (evidenceFor ps k.1 k.2) = .ok (mergedOf ps k) := by
  rw [mergeEvidence, totalWeight_of_noOverflow (finite_of_mem_evidence hfinite) h]
  rfl

/-- What is said of two files does not merge if the weights leave the range. -/
theorem mergeEvidence_of_overflow {ps : List CouplingPair} (hfinite : ∀ p ∈ ps, p.weight.isFinite)
    {k : String × String} (h : ¬NoOverflow ((evidenceFor ps k.1 k.2).map (·.weight))) :
    mergeEvidence k (evidenceFor ps k.1 k.2) = .error (.sum .overflow) := by
  rw [mergeEvidence, totalWeight_of_overflow (finite_of_mem_evidence hfinite) h]
  rfl

/-- Whether a merged pair holds all that is said of its two files: the exact sum of the weights,
rounded once, the sum of the common changes, who is named and what kinds of evidence there are, each
once and in order, and the latest date. -/
structure Merges (ps : List CouplingPair) (m : CouplingPair) : Prop where
  ordered : m.first ≤ m.second
  weight_eq : m.weight = Binary64.sum ((evidenceFor ps m.first m.second).map (·.weight))
  coChanges_eq : m.coChanges = total ((evidenceFor ps m.first m.second).map (·.coChanges))
  authors_sorted : m.authors.Pairwise (· < ·)
  mem_authors : ∀ s, s ∈ m.authors ↔ ∃ p ∈ evidenceFor ps m.first m.second, s ∈ p.authors
  sources_sorted : m.sources.Pairwise (· < ·)
  mem_sources : ∀ s, s ∈ m.sources ↔ ∃ p ∈ evidenceFor ps m.first m.second, s ∈ p.sources
  lastChanged_isLatest :
    IsLatest ((evidenceFor ps m.first m.second).filterMap (·.lastChanged)) m.lastChanged

theorem mergedOf_merges {ps : List CouplingPair} {k : String × String} (h : k.1 ≤ k.2) :
    Merges ps (mergedOf ps k) where
  ordered := h
  weight_eq := weight_mergedOf ps k
  coChanges_eq := rfl
  authors_sorted := Text.pairwise_sortedDistinct _
  mem_authors _ := Text.mem_sortedDistinct.trans List.mem_flatMap
  sources_sorted := Text.pairwise_sortedDistinct _
  mem_sources _ := Text.mem_sortedDistinct.trans List.mem_flatMap
  lastChanged_isLatest := latestDate_isLatest _

end Coupling
end CodeSurvey
