/-
# Merging is exact

Merged signals tell of each unordered pair of files that some signal names, once, all that the
signals say of it, in strict order of rank (`Aggregates`); what the limit leaves out ranks after
what it leaves in (`merge_exact`). No evidence is lost and none is counted twice: the evidence of
the merged pairs is that of the signals, in another order. Merging fails exactly if the weights
given for some two files have no sum (`merge_overflows`).

Rank is a strict order only because the weights are defined and the keys are distinct
(`pairwise_rank_of_defined`): nothing compares with an undefined weight.
-/

import CodeSurvey.Proofs.Coupling.Evidence
import CodeSurvey.Proofs.Number.Extended

namespace CodeSurvey
namespace Coupling

open Binary64 (NoOverflow)

/-- Whether a key comes before another one. -/
def KeyLt (k l : String × String) : Prop := k.1 < l.1 ∨ (k.1 = l.1 ∧ k.2 < l.2)

/-- Whether a pair ranks strictly before another one: it is heavier, or as heavy and
its key comes before. -/
def Outranks (p q : CouplingPair) : Prop :=
  q.weight.lt p.weight ∨ (p.weight.same q.weight ∧ KeyLt (key p) (key q))

theorem keyLe_iff {k l : String × String} : keyLe k l ↔ k.1 < l.1 ∨ (k.1 = l.1 ∧ k.2 ≤ l.2) := by
  unfold keyLe
  rw [Bool.or_eq_true, Bool.and_eq_true, decide_eq_true_eq, beq_iff_eq, Bool.not_eq_true',
    decide_eq_false_iff_not, String.not_lt]

theorem keyLe_trans {k l m : String × String} (hkl : keyLe k l) (hlm : keyLe l m) : keyLe k m := by
  rw [keyLe_iff] at *
  rcases hkl with hkl | ⟨hkl, hkl'⟩
  · rcases hlm with hlm | ⟨hlm, -⟩
    · exact .inl (String.lt_trans hkl hlm)
    · exact .inl (hlm ▸ hkl)
  · rcases hlm with hlm | ⟨hlm, hlm'⟩
    · exact .inl (hkl ▸ hlm)
    · exact .inr ⟨hkl.trans hlm, String.le_trans hkl' hlm'⟩

theorem keyLe_total (k l : String × String) : keyLe k l ∨ keyLe l k := by
  rw [keyLe_iff, keyLe_iff]
  rcases Std.lt_trichotomy k.1 l.1 with h | h | h
  · exact .inl (.inl h)
  · rcases String.le_total k.2 l.2 with h' | h'
    · exact .inl (.inr ⟨h, h'⟩)
    · exact .inr (.inr ⟨h.symm, h'⟩)
  · exact .inr (.inl h)

theorem keyLt_of_keyLe {k l : String × String} (h : keyLe k l) (hne : k ≠ l) : KeyLt k l := by
  rcases keyLe_iff.1 h with h1 | ⟨h1, h2⟩
  · exact .inl h1
  · exact .inr ⟨h1, Std.lt_of_le_of_ne h2 fun he => hne (Prod.ext h1 he)⟩

/-- Pairs of defined weights and distinct keys that are ranked are in strict order of rank. -/
theorem pairwise_rank_of_defined {ms : List CouplingPair} (hdefined : ∀ m ∈ ms, m.weight ≠ .nan)
    (hkeys : (ms.map key).Nodup) : (rank ms).Pairwise Outranks := by
  have hperm : (rank ms).Perm ms := List.mergeSort_perm _ _
  have hranked : (rank ms).Pairwise fun p q =>
      decide (q.weight.Below p.weight ∨ (¬p.weight.Below q.weight ∧ keyLe (key p) (key q))) := by
    refine pairwise_mergeSort_of_agrees (fun p hp q hq => ?_) (fun p q r hpq hqr =>
      ?_) fun p q => ?_
    · have hlt := Binary64.lt_of_defined (hdefined p hp) (hdefined q hq)
      have hgt := Binary64.lt_of_defined (hdefined q hq) (hdefined p hp)
      rw [ranksBefore, hlt, hgt, Bool.eq_iff_iff]
      simp only [Bool.or_eq_true, Bool.and_eq_true, decide_eq_true_eq, Bool.not_eq_true',
        decide_eq_false_iff_not]
    · rw [decide_eq_true_eq] at *
      unfold Binary64.Below at *
      rcases hpq with hpq | ⟨hpq, hkpq⟩
      · rcases hqr with hqr | ⟨hqr, -⟩ <;> exact .inl (by omega)
      · rcases hqr with hqr | ⟨hqr, hkqr⟩
        · exact .inl (by omega)
        · exact .inr ⟨by omega, keyLe_trans hkpq hkqr⟩
    · simp only [Bool.or_eq_true, decide_eq_true_eq]
      by_cases hlt : q.weight.Below p.weight
      · exact .inl (.inl hlt)
      · by_cases hgt : p.weight.Below q.weight
        · exact .inr (.inl hgt)
        · rcases keyLe_total (key p) (key q) with hk | hk
          · exact .inl (.inr ⟨hgt, hk⟩)
          · exact .inr (.inr ⟨hlt, hk⟩)
  have hdistinct : (rank ms).Pairwise fun p q => key p ≠ key q :=
    List.pairwise_map.1 ((hperm.map key).nodup_iff.2 hkeys)
  refine (hranked.and hdistinct).imp_of_mem fun {p q} hp hq hpq => ?_
  obtain ⟨hpq, hne⟩ := hpq
  have hp := hdefined _ (hperm.mem_iff.1 hp)
  have hq := hdefined _ (hperm.mem_iff.1 hq)
  rw [Outranks, Binary64.lt_of_defined hq hp, Binary64.same_of_defined hp hq, decide_eq_true_eq,
    decide_eq_true_eq]
  rcases of_decide_eq_true hpq with h | ⟨h, hk⟩
  · exact .inl h
  · by_cases hlt : q.weight.Below p.weight
    · exact .inl hlt
    · exact .inr ⟨⟨h, hlt⟩, keyLt_of_keyLe hk hne⟩

/-- Finite weights are defined. -/
theorem pairwise_rank {ms : List CouplingPair} (hfinite : ∀ m ∈ ms, m.weight.isFinite)
    (hkeys : (ms.map key).Nodup) : (rank ms).Pairwise Outranks :=
  pairwise_rank_of_defined (fun m hm => Binary64.ne_nan_of_isFinite (hfinite m hm)) hkeys

/-- Whether a list is all that some pairs come to: one merged pair for each two files that they
concern, with all that they say of these files, in strict order of rank. -/
structure Aggregates (ps all : List CouplingPair) : Prop where
  merges : ∀ m ∈ all, Merges ps m
  mem_keys : ∀ a b, (a, b) ∈ all.map key ↔ a ≤ b ∧ ∃ p ∈ ps, concerns a b p
  keys_nodup : (all.map key).Nodup
  ranked : all.Pairwise Outranks
  evidence_perm : (all.flatMap fun m => evidenceFor ps m.first m.second).Perm ps

/-- A step for each item of a list gives a value for each if every step gives one. -/
theorem mapM_eq_ok {α β ε : Type} {f : α → Except ε β} {g : α → β} {xs : List α}
    (h : ∀ x ∈ xs, f x = .ok (g x)) : xs.mapM f = .ok (xs.map g) := by
  induction xs with
  | nil => rfl
  | cons x xs ih =>
    rw [List.mapM_cons, h x (List.mem_cons_self ..), ih fun y hy => h y (List.mem_cons_of_mem x hy)]
    rfl

/-- A step for each item of a list fails in one way if some step does and none
fails in another way. -/
theorem mapM_eq_error {α β ε : Type} {f : α → Except ε β} {g : α → β} {e : ε} {xs : List α}
    (h : ∀ x ∈ xs, f x = .ok (g x) ∨ f x = .error e) (hx : ∃ x ∈ xs, f x = .error e) :
    xs.mapM f = .error e := by
  induction xs with
  | nil =>
    obtain ⟨x, hx, -⟩ := hx
    exact absurd hx List.not_mem_nil
  | cons x xs ih =>
    rw [List.mapM_cons]
    rcases h x (List.mem_cons_self ..) with hok | herror
    · obtain ⟨y, hy, hfails⟩ := hx
      have hmem : y ∈ xs := by
        rcases List.mem_cons.1 hy with rfl | hmem
        · rw [hok] at hfails
          cases hfails
        · exact hmem
      rw [hok, ih (fun z hz => h z (List.mem_cons_of_mem x hz)) ⟨y, hmem, hfails⟩]
      rfl
    · rw [herror]
      rfl

/-- The merged pairs of all keys, ranked. -/
def ranking (ps : List CouplingPair) : List CouplingPair := rank ((keys ps).map (mergedOf ps))

theorem ranking_perm (ps : List CouplingPair) : (ranking ps).Perm ((keys ps).map (mergedOf ps)) :=
  List.mergeSort_perm _ _

/-- The merged pairs have the keys of the pairs. -/
theorem keys_ranking_perm (ps : List CouplingPair) : ((ranking ps).map key).Perm (keys ps) := by
  have hkeys : ((keys ps).map (mergedOf ps)).map key = keys ps := by
    rw [List.map_map]
    exact (List.map_congr_left fun k _ => key_mergedOf ps k).trans (List.map_id _)
  exact hkeys ▸ (ranking_perm ps).map key

/-- The ranked merged pairs are those of their keys. -/
theorem map_key_ranking (ps : List CouplingPair) :
    ((ranking ps).map key).map (mergedOf ps) = ranking ps := by
  rw [List.map_map]
  refine (List.map_congr_left fun m hm => ?_).trans (List.map_id _)
  obtain ⟨k, -, rfl⟩ := List.mem_map.1 ((ranking_perm ps).mem_iff.1 hm)
  rw [Function.comp_apply, key_mergedOf, id_eq]

/-- The weights given for each two files have a sum if those given for the files
of each pair have one. -/
theorem noOverflow_of_mem_keys {ps : List CouplingPair}
    (h : ∀ p ∈ ps, NoOverflow ((evidenceFor ps p.first p.second).map (·.weight)))
    {k : String × String} (hk : k ∈ keys ps) :
    NoOverflow ((evidenceFor ps k.1 k.2).map (·.weight)) := by
  obtain ⟨p, hp, rfl⟩ := List.mem_map.1 (List.mem_eraseDups.1 hk)
  rw [evidenceFor_keyOf]
  exact h p hp

/-- The ranked merged pairs are all that the pairs come to. -/
theorem ranking_aggregates {ps : List CouplingPair}
    (hsums : ∀ p ∈ ps, NoOverflow ((evidenceFor ps p.first p.second).map (·.weight))) :
    Aggregates ps (ranking ps) where
  merges m hm := by
    obtain ⟨k, hk, rfl⟩ := List.mem_map.1 ((ranking_perm ps).mem_iff.1 hm)
    exact mergedOf_merges (le_of_mem_keys hk)
  mem_keys a b := (keys_ranking_perm ps).mem_iff.trans Coupling.mem_keys
  keys_nodup := (keys_ranking_perm ps).nodup_iff.2 (nodup_eraseDups _)
  ranked := by
    refine pairwise_rank (fun m hm => ?_) (((ranking_perm ps).map key).nodup_iff.1 ?_)
    · obtain ⟨k, hk, rfl⟩ := List.mem_map.1 hm
      rw [weight_mergedOf]
      exact Binary64.isFinite_sum (noOverflow_of_mem_keys hsums hk)
    · exact (keys_ranking_perm ps).nodup_iff.2 (nodup_eraseDups _)
  evidence_perm := by
    have hfiles : ((ranking ps).flatMap fun m => evidenceFor ps m.first m.second) =
        ((ranking ps).map key).flatMap fun k => evidenceFor ps k.1 k.2 := by
      rw [List.flatMap_map]
      rfl
    have hgroups : ((keys ps).flatMap fun k => evidenceFor ps k.1 k.2) =
        (keys ps).flatMap fun k => ps.filter fun p => keyOf p == k :=
      List.flatMap_congr fun k hk => (filter_keyOf (le_of_mem_keys hk) ps).symm
    rw [hfiles]
    refine ((keys_ranking_perm ps).flatMap_right _).trans ?_
    rw [hgroups]
    exact flatMap_filter_perm keyOf (nodup_eraseDups _) fun p hp =>
      List.mem_eraseDups.2 (List.mem_map_of_mem hp)

/-- Pairs whose weights have sums merge into what a limit leaves of all that they come to. -/
theorem mergePairs_eq_upTo {ps : List CouplingPair} (hfinite : ∀ p ∈ ps, p.weight.isFinite)
    (hsums : ∀ p ∈ ps, NoOverflow ((evidenceFor ps p.first p.second).map (·.weight)))
    (limit : Int) : mergePairs limit ps = .ok (upTo limit (ranking ps)) := by
  have hmerged : ((keys ps).map fun k => (k, evidenceFor ps k.1 k.2)).mapM
      (fun group => mergeEvidence group.1 group.2) = .ok ((keys ps).map (mergedOf ps)) := by
    rw [List.mapM_map]
    exact mapM_eq_ok fun k hk =>
      mergeEvidence_of_noOverflow hfinite (noOverflow_of_mem_keys hsums hk)
  rw [mergePairs, groupByKey_eq, hmerged]
  rfl

/-- Pairs whose weights have sums merge, up to a limit, into the first of all that they come to. -/
theorem mergePairs_of_noOverflow {ps : List CouplingPair} (hfinite : ∀ p ∈ ps, p.weight.isFinite)
    (hsums : ∀ p ∈ ps, NoOverflow ((evidenceFor ps p.first p.second).map (·.weight))) {limit : Int}
    (hlimit : 0 ≤ limit) : mergePairs limit ps = .ok ((ranking ps).take limit.toNat) := by
  rw [mergePairs_eq_upTo hfinite hsums, upTo_of_nonneg hlimit]

/-- **Merging is exact.** If the weights are finite and those given for each two files have a sum,
the signals merge into the first of all that they come to, as many as the limit allows, and every
pair that is left out ranks after every one that is not. -/
theorem merge_exact (s : CouplingSettings) (signals : List (List CouplingPair))
    (hlimit : 1 ≤ s.maxPairs) (hfinite : ∀ p ∈ signals.flatten, p.weight.isFinite)
    (hsums : ∀ p ∈ signals.flatten,
      NoOverflow ((evidenceFor signals.flatten p.first p.second).map (·.weight))) :
    ∃ all, merge s signals = .ok (all.take s.maxPairs.toNat) ∧ Aggregates signals.flatten all ∧
      ∀ p ∈ all.take s.maxPairs.toNat, ∀ q ∈ all.drop s.maxPairs.toNat, Outranks p q := by
  have hall := ranking_aggregates hsums
  refine ⟨ranking signals.flatten, mergePairs_of_noOverflow hfinite hsums (by omega), hall, ?_⟩
  have hranked := hall.ranked
  rw [← List.take_append_drop s.maxPairs.toNat (ranking signals.flatten),
    List.pairwise_append] at hranked
  exact hranked.2.2

/-- Three signals name one pair in both orders, and another pair once; the limit
leaves the heavier one. -/
theorem merge_exact_of_both_orders :
    let s : CouplingSettings := { maxPairs := 1 }
    let signals : List (List CouplingPair) :=
      [[{ first := "src/b.py", second := "src/a.py", weight := .ofInt 2, coChanges := 3,
          authors := ["Ada"] }],
        [{ first := "src/a.py", second := "src/c.py", weight := .ofInt 4, sources := ["naming"] }],
        [{ first := "src/a.py", second := "src/b.py", weight := .ofInt 3,
           sources := ["directory"] }]]
    1 ≤ s.maxPairs ∧ (∀ p ∈ signals.flatten, p.weight.isFinite) ∧
      (∀ p ∈ signals.flatten,
        NoOverflow ((evidenceFor signals.flatten p.first p.second).map (·.weight))) ∧
      ∃ all, merge s signals = .ok (all.take 1) ∧ Aggregates signals.flatten all := by
  intro s signals
  have hlimit : 1 ≤ s.maxPairs := by decide
  have hfinite : ∀ p ∈ signals.flatten, p.weight.isFinite := by decide +kernel
  have hsums : ∀ p ∈ signals.flatten,
      NoOverflow ((evidenceFor signals.flatten p.first p.second).map (·.weight)) := by
        decide +kernel
  obtain ⟨all, hmerge, hall, -⟩ := merge_exact s signals hlimit hfinite hsums
  exact ⟨hlimit, hfinite, hsums, all, hmerge, hall⟩

/-- Where the weights given for some two files have no sum, nothing is merged. -/
theorem merge_overflows (s : CouplingSettings) {signals : List (List CouplingPair)}
    (hfinite : ∀ p ∈ signals.flatten, p.weight.isFinite) {p : CouplingPair}
    (hp : p ∈ signals.flatten)
    (h : ¬NoOverflow ((evidenceFor signals.flatten p.first p.second).map (·.weight))) :
    merge s signals = .error (.sum .overflow) := by
  have hmerged : ((keys signals.flatten).map fun k => (k, evidenceFor signals.flatten k.1 k.2)).mapM
      (fun group => mergeEvidence group.1 group.2) = .error (.sum .overflow) := by
    rw [List.mapM_map]
    refine mapM_eq_error (g := mergedOf signals.flatten) (fun k _ => ?_) ⟨keyOf p, ?_, ?_⟩
    · by_cases hk : NoOverflow ((evidenceFor signals.flatten k.1 k.2).map (·.weight))
      · exact .inl (mergeEvidence_of_noOverflow hfinite hk)
      · exact .inr (mergeEvidence_of_overflow hfinite hk)
    · exact List.mem_eraseDups.2 (List.mem_map_of_mem hp)
    · rw [← evidenceFor_keyOf] at h
      exact mergeEvidence_of_overflow hfinite h
  rw [merge, mergePairs, groupByKey_eq, hmerged]
  rfl

end Coupling
end CodeSurvey
