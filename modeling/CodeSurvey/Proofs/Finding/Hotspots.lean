/-
# Hotspots and the commits that change their files

One pass over the commits leaves for each path the number of commits that change it, however often
they list it (`Hotspots.changesTo_changeCounts`). Hotspots are made from these numbers alone, so the
order of the commits does not matter (`Hotspots.spots_perm`). A metric makes a hotspot exactly if
some commit changes its file and its complexity is above the minimum
(`Hotspots.spotOf?_eq_some_iff`), and what is reported is a head of all hotspots in the strict order
of their rank (`Hotspots.spots_ranked`).
-/

import CodeSurvey.Finding.Hotspots
import CodeSurvey.Proofs.Keyed
import CodeSurvey.Proofs.Sorting
import Mathlib.Data.Prod.Lex
import Mathlib.Data.String.Basic

namespace CodeSurvey
namespace Hotspots

/-- Whether a hotspot is what is reported of the file of a metric. -/
structure Reports (o : Options) (commits : List Commit) (m : QualityMetric)
    (x : Hotspot) : Prop where
  above : o.minComplexity < m.complexity
  changed : ∃ c ∈ commits, m.path ∈ c.changed
  path : x.path = m.path
  complexity : x.complexity = m.complexity
  changes : x.changes = commits.countP fun c => m.path ∈ c.changed
  score : x.score = x.changes * x.complexity
  risk : x.risk = riskOf x.score

/-- The rank of a hotspot: the highest score comes first, then the first by path. -/
def rank (x : Hotspot) : ℤ ×ₗ String := toLex (-x.score, x.path)

/-- **The changes of a path** are the commits that change it; a commit counts once, however
often it lists the path. -/
theorem changesTo_changeCounts (commits : List Commit) (path : String) :
    changesTo (changeCounts commits) path = commits.countP fun c => path ∈ c.changed := by
  have hnodup : ∀ c ∈ commits, c.changed.eraseDups.Nodup := fun c _ => nodup_eraseDups c.changed
  have hcounts : changeCounts commits =
      (commits.flatMap fun c => c.changed.eraseDups).eraseDups.map fun k =>
        (k, (commits.filter fun c => c.changed.eraseDups.contains k).foldl (fun n _ => n + 1) 0) :=
    Keyed.foldl_modify_mentions (fun c : Commit => c.changed.eraseDups) 0 (fun n _ => n + 1) hnodup
  have hlists : ∀ c : Commit, c.changed.eraseDups.contains path = decide (path ∈ c.changed) := by
    intro c
    rw [Bool.eq_iff_iff, List.contains_iff_mem, List.mem_eraseDups, decide_eq_true_eq]
  rw [changesTo, hcounts, Keyed.lookup_map, List.foldl_add_const, List.countP_eq_length_filter]
  simp only [hlists]
  split_ifs with hkeys
  · simp
  · -- A path without a count is one that no commit changes.
    refine (List.length_eq_zero_iff.2 (List.filter_eq_nil_iff.2 fun c hc hmem => hkeys ?_)).symm
    rw [List.contains_iff_mem, List.mem_eraseDups, List.mem_flatMap]
    exact ⟨c, hc, List.mem_eraseDups.2 (of_decide_eq_true hmem)⟩

/-- A metric makes a hotspot if it is above the minimum and some commit changes
its file, and only then. -/
theorem spotOf?_eq_some_iff {o : Options} {commits : List Commit} {m : QualityMetric}
    {x : Hotspot} : spotOf? o (changeCounts commits) m = some x ↔ Reports o commits m x := by
  have hchanged : 0 < (commits.countP fun c => m.path ∈ c.changed) ↔ ∃ c ∈ commits,
      m.path ∈ c.changed := by
    simp only [List.countP_pos_iff, decide_eq_true_eq]
  rw [spotOf?, changesTo_changeCounts]
  dsimp only
  constructor
  · intro h
    split_ifs at h with hnone
    rw [Bool.or_eq_true, decide_eq_true_eq, decide_eq_true_eq, not_or] at hnone
    obtain rfl := Option.some.inj h
    exact ⟨Int.not_le.1 hnone.2, hchanged.1 (Nat.pos_of_ne_zero hnone.1), rfl, rfl, rfl, rfl, rfl⟩
  · rintro ⟨habove, hcommit, hpath, hcomplexity, hchanges, hscore, hrisk⟩
    have hsome : ¬((decide ((commits.countP fun c => m.path ∈ c.changed) = 0) ||
        decide (m.complexity ≤ o.minComplexity)) = true) := by
      have := hchanged.2 hcommit
      rw [Bool.or_eq_true, decide_eq_true_eq, decide_eq_true_eq]
      omega
    obtain ⟨path, complexity, changes, score, risk⟩ := x
    dsimp only at hpath hcomplexity hchanges hscore hrisk
    subst hpath hcomplexity hchanges hscore hrisk
    rw [if_neg hsome]

theorem ranksBefore_iff (x y : Hotspot) : ranksBefore x y ↔ rank x ≤ rank y := by
  rw [ranksBefore, rank, rank, Prod.Lex.toLex_le_toLex, Bool.or_eq_true, Bool.and_eq_true,
    decide_eq_true_eq, beq_iff_eq, Bool.not_eq_true', decide_eq_false_iff_not, not_lt]
  dsimp only
  constructor
  · rintro (h | ⟨h, hpath⟩)
    · exact .inl (by omega)
    · exact .inr ⟨by omega, hpath⟩
  · rintro (h | ⟨h, hpath⟩)
    · exact .inl (by omega)
    · exact .inr ⟨by omega, hpath⟩

/-- Hotspots that were ranked are in the order of their rank. -/
theorem pairwise_ranked (xs : List Hotspot) :
    (xs.mergeSort ranksBefore).Pairwise fun x y => rank x ≤ rank y :=
  pairwise_mergeSort_of_rank ranksBefore_iff xs

/-- Hotspots of metrics of distinct files are of distinct files. -/
theorem nodup_map_path (o : Options) (counts : List (String × Nat)) {quality : List QualityMetric}
    (h : (quality.map (·.path)).Nodup) :
    ((quality.filterMap (spotOf? o counts)).map (·.path)).Nodup := by
  have hpath : ∀ m x, spotOf? o counts m = some x → x.path = m.path := by
    intro m x hx
    rw [spotOf?] at hx
    split_ifs at hx
    obtain rfl := Option.some.inj hx
    rfl
  have hsub : ((quality.filterMap (spotOf? o counts)).map (·.path)).Sublist
      (quality.map (·.path)) := by
    induction quality with
    | nil => exact List.Sublist.slnil
    | cons m quality ih =>
      have hrest := ih (List.nodup_cons.1 h).2
      cases hm : spotOf? o counts m with
      | none =>
        rw [List.filterMap_cons_none hm, List.map_cons]
        exact hrest.cons _
      | some x =>
        rw [List.filterMap_cons_some hm, List.map_cons, List.map_cons, hpath m x hm]
        exact hrest.cons_cons _
  exact h.sublist hsub

/-- The order of the commits does not matter. -/
theorem spots_perm (o : Options) {commits commits' : List Commit} (h : commits'.Perm commits)
    (quality : List QualityMetric) : spots o commits' quality = spots o commits quality := by
  have hspot : spotOf? o (changeCounts commits') = spotOf? o (changeCounts commits) := by
    funext m
    rw [spotOf?, spotOf?, changesTo_changeCounts, changesTo_changeCounts, h.countP_eq]
  rw [spots, spots, hspot]

/-- **Hotspots are exact and ranked.** A limit that is not negative leaves the first of all hotspots
in the strict order of their rank, one for each metric above the minimum whose file some commit
changes. Its changes are the commits that change the file, each counted once, and its score is their
product with the complexity. The order of the commits does not matter. -/
theorem spots_ranked {o : Options} (hlimit : 0 ≤ o.limit) (commits : List Commit)
    {quality : List QualityMetric} (hpaths : (quality.map (·.path)).Nodup) :
    (∃ all : List Hotspot, spots o commits quality = all.take o.limit.toNat ∧
      all.Pairwise (fun x y => rank x < rank y) ∧
      ∀ x, x ∈ all ↔ ∃ m ∈ quality, Reports o commits m x) ∧
      ∀ commits', commits'.Perm commits → spots o commits' quality = spots o commits quality := by
  refine ⟨⟨_, upTo_of_nonneg hlimit _, ?_, fun x => ?_⟩, fun commits' h => spots_perm o h quality⟩
  · have hdistinct :
        ((quality.filterMap (spotOf? o (changeCounts commits))).mergeSort ranksBefore).Pairwise
        fun x y => x.path ≠ y.path :=
      List.pairwise_map.1
        (((List.mergeSort_perm _ _).map _).nodup_iff.2 (nodup_map_path o _ hpaths))
    refine (pairwise_ranked _).imp₂ (fun {x y} hxy hne => lt_of_le_of_ne hxy fun heq =>
      hne ?_) hdistinct
    exact (Prod.mk.inj (toLex_inj.1 heq)).2
  · rw [List.mem_mergeSort, List.mem_filterMap]
    simp only [spotOf?_eq_some_iff]

/-- Of two hotspots with one score the first by path is reported; a commit that lists a
path twice counts once. -/
theorem spots_ranked_of_repeated_paths :
    let o : Options := { limit := 1 }
    let commits : List Commit :=
      [{ sha := "1", changed := ["b.ts", "a.ts", "b.ts"] },
        { sha := "2", changed := ["b.ts", "b.ts"] }, { sha := "3", changed := ["c.ts"] }]
    let quality : List QualityMetric :=
      [⟨"d.ts", 90, 40, 300, false⟩, ⟨"c.ts", 10, 40, 300, false⟩, ⟨"b.ts", 12, 40, 300, false⟩,
        ⟨"a.ts", 24, 40, 300, false⟩]
    0 ≤ o.limit ∧ (quality.map (·.path)).Nodup ∧
      spots o commits quality = [⟨"a.ts", 24, 1, 24, "low"⟩] ∧
      spots o commits.reverse quality = [⟨"a.ts", 24, 1, 24, "low"⟩] := by
  intro o commits quality
  have hlimit : 0 ≤ o.limit := by decide
  have hpaths : (quality.map (·.path)).Nodup := by decide
  obtain ⟨⟨all, hspots, hranked, hall⟩, hperm⟩ := spots_ranked hlimit commits hpaths
  have hfound : quality.filterMap (spotOf? o (changeCounts commits)) =
      [⟨"b.ts", 12, 2, 24, "low"⟩, ⟨"a.ts", 24, 1, 24, "low"⟩] := by decide +kernel
  have htwo : all = [⟨"a.ts", 24, 1, 24, "low"⟩, ⟨"b.ts", 12, 2, 24, "low"⟩] := by
    refine eq_of_pairwise_of_mem_iff (fun _ _ => lt_asymm) hranked ?_ fun x => ?_
    · refine List.pairwise_pair.2 (Prod.Lex.toLex_lt_toLex.2 (.inr ⟨rfl, ?_⟩))
      decide
    · simp only [hall, ← spotOf?_eq_some_iff, ← List.mem_filterMap, hfound, List.mem_cons,
        List.not_mem_nil, or_false]
      exact or_comm
  have hone : spots o commits quality = [⟨"a.ts", 24, 1, 24, "low"⟩] := by
    rw [hspots, htwo]
    rfl
  exact ⟨hlimit, hpaths, hone, (hperm _ (List.reverse_perm _)).trans hone⟩

end Hotspots
end CodeSurvey
