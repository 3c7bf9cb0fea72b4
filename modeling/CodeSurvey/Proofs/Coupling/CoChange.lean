/-
# The couplings of commits are shares

The commits of a window couple two files exactly if as many qualifying commits as are wanted change
both, and these are as great a share as is wanted of the qualifying commits that change either
(`Suffices`). The coupling says how many they are, what share, who made them, and which is the
latest (`Tells`); there is one for each such two files, in strict order of rank
(`commitCouplings_exact`).

The divisor is the number of commits that change one file and that of those that change the other,
less the number of those that change both. As all three range over the same commits, it is the
number of those that change either (`divisor_eq`), so the share is never more than one.
-/

import CodeSurvey.Proofs.Coupling.Merge
import CodeSurvey.Proofs.Coupling.Tally
import CodeSurvey.Proofs.Coupling.Window
import CodeSurvey.Proofs.Number.Order

namespace CodeSurvey
namespace Coupling

open Binary64 (unitsPerOne)

/-- The number of qualifying commits that change one of two files and that of those that change the
other, less the number of those that change both. -/
def divisor (s : CouplingSettings) (commits : List Commit) (a b : String) : Nat :=
  (changing s commits a).length +
    (changing s commits b).length - (changingBoth s commits a b).length

/-- The share of the commits that change both files among those that change either. -/
def strength (s : CouplingSettings) (commits : List Commit) (a b : String) : Binary64 :=
  Binary64.ofRatio (changingBoth s commits a b).length (divisor s commits a b)

/-- Whether as many commits as are wanted change both files, and as great a share of
those that change either. -/
def Suffices (s : CouplingSettings) (commits : List Commit) (a b : String) : Prop :=
  max 1 s.minCoChanges ≤ ((changingBoth s commits a b).length : Int) ∧
    s.minStrength.le (strength s commits a b)

instance (s : CouplingSettings) (commits : List Commit) (a b : String) :
    Decidable (Suffices s commits a b) :=
  inferInstanceAs (Decidable (_ ∧ _))

/-- Whether a pair tells of its two files what the qualifying commits among some that change both of
them say. The share is a positive number; rounding could take it away only where no least share is
asked for and there are more commits than there are units in one. -/
structure Tells (s : CouplingSettings) (commits : List Commit) (p : CouplingPair) : Prop where
  ordered : p.first < p.second
  one_le_coChanges : 1 ≤ (changingBoth s commits p.first p.second).length
  coChanges_le_divisor : (changingBoth s commits p.first p.second).length ≤
    divisor s commits p.first p.second
  weight_eq : p.weight = strength s commits p.first p.second
  weight_le_one : p.weight.le (Binary64.ofInt 1)
  weight_nonneg : Binary64.zero.le p.weight
  weight_pos : Binary64.zero.lt s.minStrength ∨ commits.length ≤ unitsPerOne →
    Binary64.zero.lt p.weight
  coChanges_eq : p.coChanges = (changingBoth s commits p.first p.second).length
  authors_sorted : p.authors.Pairwise (· < ·)
  mem_authors : ∀ name, name ∈ p.authors ↔
    name ≠ "" ∧ ∃ c ∈ changingBoth s commits p.first p.second, c.author = name
  lastChanged_isLatest :
    IsLatest ((changingBoth s commits p.first p.second).map (·.date)) p.lastChanged
  sources_eq : p.sources = ["commits"]

/-- Of some items, those with one property and those with another are those with both
and those with either. -/
theorem length_filter_add {α : Type} (p q : α → Bool) (xs : List α) :
    (xs.filter p).length + (xs.filter q).length =
      (xs.filter fun x => p x && q x).length + (xs.filter fun x => p x || q x).length := by
  induction xs with
  | nil => rfl
  | cons x xs ih =>
    simp only [List.filter_cons]
    cases p x <;> cases q x <;> simp <;> omega

/-- The divisor is the number of commits that change either file. -/
theorem divisor_eq (s : CouplingSettings) (commits : List Commit) (a b : String) :
    divisor s commits a b = ((qualifying s commits).filter fun c => a ∈ touched c ∨
      b ∈ touched c).length := by
  have hsplit := length_filter_add (fun c => decide (a ∈ touched c)) (fun c =>
    decide (b ∈ touched c))
    (qualifying s commits)
  simp only [← Bool.decide_and, ← Bool.decide_or] at hsplit
  rw [divisor, changing, changing, hsplit, changingBoth, Nat.add_sub_cancel_left]

theorem coChanges_le_divisor (s : CouplingSettings) (commits : List Commit) (a b : String) :
    (changingBoth s commits a b).length ≤ divisor s commits a b := by
  rw [divisor_eq, changingBoth, ← List.countP_eq_length_filter, ← List.countP_eq_length_filter]
  refine List.countP_mono_left fun c _ hc => ?_
  rw [decide_eq_true_eq] at hc ⊢
  exact .inl hc.1

theorem divisor_le (s : CouplingSettings) (commits : List Commit) (a b : String) :
    divisor s commits a b ≤ commits.length := by
  rw [divisor_eq]
  exact Nat.le_trans (List.length_filter_le _ _) (List.length_filter_le _ _)

/-- A share of commits is a number between zero and one. -/
theorem strength_between {s : CouplingSettings} {commits : List Commit} {a b : String}
    (h : changingBoth s commits a b ≠ []) :
    (strength s commits a b).isFinite ∧ 0 ≤ (strength s commits a b).units ∧
      (strength s commits a b).units ≤ unitsPerOne ∧
      (commits.length ≤ unitsPerOne → 0 < (strength s commits a b).units) := by
  have hco : 0 < (changingBoth s commits a b).length := List.length_pos_iff.2 h
  have hle := coChanges_le_divisor s commits a b
  obtain ⟨hfinite, hnonneg, hone, hpos⟩ := Binary64.ofRatio_between (by omega) hle
  exact ⟨hfinite, hnonneg, hone,
    fun hfew => hpos hco (Nat.le_trans (divisor_le s commits a b) hfew)⟩

/-- What the qualifying commits that change two files say of them. -/
def coupling (s : CouplingSettings) (commits : List Commit) (k : String × String) :
    CouplingPair where
  first := k.1
  second := k.2
  weight := strength s commits k.1 k.2
  coChanges := (changingBoth s commits k.1 k.2).length
  authors := Text.sortedDistinct (CoChange.of (changingBoth s commits k.1 k.2)).authors
  lastChanged := latestDate ((changingBoth s commits k.1 k.2).map (·.date))
  sources := ["commits"]

/-- The tally has enough evidence for two files exactly if it suffices, and tells
what the commits say. -/
theorem coupling?_ofCommits {s : CouplingSettings} (hstrength : s.minStrength ≠ .nan)
    {commits : List Commit} {k : String × String} (hk : k ∈ changedPairs s commits) :
    (Tally.ofCommits s commits).coupling? s k (CoChange.of (changingBoth s commits k.1 k.2)) =
      if Suffices s commits k.1 k.2 then some (coupling s commits k) else none := by
  obtain ⟨-, hboth⟩ := mem_changedPairs.1 hk
  have hco : 0 < (changingBoth s commits k.1 k.2).length := List.length_pos_iff.2 hboth
  have hle := coChanges_le_divisor s commits k.1 k.2
  have hweight : (if divisor s commits k.1 k.2 = 0 then Binary64.zero
      else Binary64.ofRatio (changingBoth s commits k.1 k.2).length (divisor s commits k.1 k.2)) =
      strength s commits k.1 k.2 := if_neg (by omega)
  have hfinite := (strength_between hboth).1
  have hnumber : strength s commits k.1 k.2 ≠ .nan := by
    intro hnan
    rw [hnan] at hfinite
    cases hfinite
  have hdivisor : (changing s commits k.1).length + (changing s commits k.2).length -
      (changingBoth s commits k.1 k.2).length = divisor s commits k.1 k.2 := rfl
  unfold Tally.coupling?
  simp only [CoChange.count_of, CoChange.latest_of, Tally.changesTo_ofCommits, hdivisor, hweight]
  by_cases hmin : ((changingBoth s commits k.1 k.2).length : Int) < s.minCoChanges
  · have hfew : ¬Suffices s commits k.1 k.2 := fun h => by
      have := h.1
      omega
    rw [if_pos hmin, if_neg hfew]
  · rw [if_neg hmin]
    by_cases hlt : (strength s commits k.1 k.2).lt s.minStrength
    · have hweak : ¬Suffices s commits k.1 k.2 := fun h =>
        (Binary64.not_lt_iff_le hnumber hstrength).2 h.2 hlt
      rw [if_pos hlt, if_neg hweak]
    · have hsuffices : Suffices s commits k.1 k.2 :=
        ⟨by omega, (Binary64.not_lt_iff_le hnumber hstrength).1 hlt⟩
      rw [if_neg hlt, if_pos hsuffices, coupling]

/-- The couplings of commits are those of the pairs of files with enough evidence. -/
theorem filterMap_coupling? {s : CouplingSettings} (hstrength : s.minStrength ≠ .nan)
    (commits : List Commit) :
    ((Tally.ofCommits s commits).pairs.filterMap fun entry =>
        (Tally.ofCommits s commits).coupling? s entry.1 entry.2) =
      ((changedPairs s commits).filter fun k => Suffices s commits k.1 k.2).map
        (coupling s commits) := by
  rw [Tally.pairs_ofCommits, List.filterMap_map, ← List.filterMap_eq_map, List.filterMap_filter]
  refine List.filterMap_congr fun k hk => ?_
  simp only [Function.comp_apply, decide_eq_true_eq]
  exact coupling?_ofCommits hstrength hk

theorem key_coupling (s : CouplingSettings) (commits : List Commit) (k : String × String) :
    key (coupling s commits k) = k := by
  simp only [key, coupling]

theorem weight_coupling (s : CouplingSettings) (commits : List Commit) (k : String × String) :
    (coupling s commits k).weight = strength s commits k.1 k.2 := by
  simp only [coupling]

theorem coupling_tells {s : CouplingSettings} {commits : List Commit} {k : String × String}
    (hk : k ∈ changedPairs s commits) (h : Suffices s commits k.1 k.2) :
    Tells s commits (coupling s commits k) := by
  obtain ⟨hlt, hboth⟩ := mem_changedPairs.1 hk
  obtain ⟨hfinite, hnonneg, hone, hpos⟩ := strength_between hboth
  have hzero : Binary64.zero.isFinite := rfl
  have hzeroUnits : Binary64.zero.units = 0 := rfl
  obtain ⟨honeFinite, honeUnits⟩ := Binary64.ofInt_exact (k := 1) (by decide)
  rw [Int.one_mul] at honeUnits
  exact
    { ordered := hlt
      one_le_coChanges := List.length_pos_iff.2 hboth
      coChanges_le_divisor := coChanges_le_divisor s commits k.1 k.2
      weight_eq := weight_coupling s commits k
      weight_le_one := by
        rw [weight_coupling, Binary64.le_of_isFinite hfinite honeFinite, honeUnits]
        exact decide_eq_true hone
      weight_nonneg := by
        rw [weight_coupling, Binary64.le_of_isFinite hzero hfinite, hzeroUnits]
        exact decide_eq_true hnonneg
      weight_pos := by
        rw [weight_coupling]
        rintro (hstrength | hfew)
        · exact Binary64.lt_of_lt_of_le hstrength h.2
        · rw [Binary64.lt_of_isFinite hzero hfinite, hzeroUnits]
          exact decide_eq_true (hpos hfew)
      coChanges_eq := rfl
      authors_sorted := Text.pairwise_sortedDistinct _
      mem_authors := fun name => Text.mem_sortedDistinct.trans CoChange.mem_authors_of
      lastChanged_isLatest := latestDate_isLatest _
      sources_eq := rfl }

/-- **The couplings of commits are exact.** Where there is a window, it holds the latest commits of
its days, and these couple each two files for which they are evidence enough, once, and tell of them
what the qualifying commits that change both say, in strict order of rank. -/
theorem commitCouplings_exact (s : CouplingSettings) (commits : List Commit) {recent : List Commit}
    (hwindow : window s commits = .ok recent) (hstrength : s.minStrength ≠ .nan) :
    recent = upTo s.maxCommits (latestFirst (·.date) (recentOf s.windowDays commits)) ∧
      ∃ pairs, commitCouplings s commits = .ok pairs ∧
        (∀ a b, (a, b) ∈ pairs.map key ↔ a < b ∧ Suffices s recent a b) ∧
        (∀ p ∈ pairs, Tells s recent p) ∧ (pairs.map key).Nodup ∧ pairs.Pairwise Outranks := by
  have hcouplings : commitCouplings s commits = .ok (rank
      (((changedPairs s recent).filter fun k => Suffices s recent k.1 k.2).map
        (coupling s recent))) := by
    rw [commitCouplings, hwindow, ← filterMap_coupling? hstrength]
    rfl
  generalize hkeys : ((changedPairs s recent).filter fun k => Suffices s recent k.1 k.2) = ks
    at hcouplings
  have hperm : (rank (ks.map (coupling s recent))).Perm (ks.map (coupling s recent)) :=
    List.mergeSort_perm _ _
  have hmem : ∀ k, k ∈ ks ↔ k ∈ changedPairs s recent ∧ Suffices s recent k.1 k.2 := by
    intro k
    rw [← hkeys, List.mem_filter, decide_eq_true_eq]
  have hmap : (ks.map (coupling s recent)).map key = ks := by
    rw [List.map_map]
    exact (List.map_congr_left fun k _ => key_coupling s recent k).trans (List.map_id _)
  have hnodup : ((ks.map (coupling s recent)).map key).Nodup := by
    rw [hmap, ← hkeys]
    exact (nodup_eraseDups _).filter _
  have hpermKeys := hperm.map key
  refine ⟨window_eq hwindow, _, hcouplings, fun a b => ?_, fun p hp => ?_,
    hpermKeys.nodup_iff.2 hnodup, pairwise_rank (fun p hp => ?_) hnodup⟩
  · rw [hpermKeys.mem_iff, hmap, hmem, mem_changedPairs]
    constructor
    · rintro ⟨⟨hab, -⟩, hsuffices⟩
      exact ⟨hab, hsuffices⟩
    · rintro ⟨hab, hsuffices⟩
      refine ⟨⟨hab, fun hnone => ?_⟩, hsuffices⟩
      have hco := hsuffices.1
      rw [hnone, List.length_nil] at hco
      omega
  · obtain ⟨k, hk, rfl⟩ := List.mem_map.1 (hperm.mem_iff.1 hp)
    obtain ⟨hchanged, hsuffices⟩ := (hmem k).1 hk
    exact coupling_tells hchanged hsuffices
  · obtain ⟨k, hk, rfl⟩ := List.mem_map.1 hp
    rw [weight_coupling]
    exact (strength_between (mem_changedPairs.1 ((hmem k).1 hk).1).2).1

/-- Of four commits one is too old and one changes too many files; the other two change a file
twice, and an empty path. -/
theorem commitCouplings_exact_of_four_commits :
    let s : CouplingSettings := { maxFanout := 2 }
    let last : Commit :=
      { author := "Cyd", date := "2024-05-02T12:00:00+02:00", changed := ["", "a.py", "b.py"] }
    let wide : Commit :=
      { author := "Bob", date := "2024-05-02T09:00:00Z", changed := ["a.py", "b.py", "c.py"] }
    let first : Commit :=
      { author := "Ada", date := "2024-05-02T08:00:00Z", changed := ["b.py", "a.py", "b.py"] }
    let old : Commit :=
      { author := "Dan", date := "2024-03-02T08:00:00Z", changed := ["a.py", "c.py"] }
    window s [last, wide, first, old] = .ok [last, wide, first] ∧ s.minStrength ≠ .nan ∧
      ∃ pairs, commitCouplings s [last, wide, first, old] = .ok pairs ∧
        ("a.py", "b.py") ∈ pairs.map key ∧ ∀ p ∈ pairs, Tells s [last, wide, first] p := by
  intro s last wide first old
  have hwindow : window s [last, wide, first, old] = .ok [last, wide, first] := by
    have hsorted : latestFirst (·.date) [last, wide, first] = [last, wide, first] :=
      List.mergeSort_of_pairwise (by decide +kernel)
    let newest : Moment := { date := ⟨2024, 5, 2⟩, hour := 12, offset := 7200000000 }
    have hnewest : newest? ([last, wide, first, old].filterMap fun c => Moment.ofDate? c.date) =
        some newest := by
      decide +kernel
    have hcutoff : newest.daysBefore s.windowDays =
        .ok (newest.instant - 30 * Moment.dayMicros) := by
      have hdays : Moment.checkDays 30 = .ok () := by rfl
      rw [Moment.daysBefore, hdays]
      exact if_neg (by decide +kernel)
    have hrecent : [last, wide, first, old].filter
        (inWindow (newest.instant - 30 * Moment.dayMicros)) =
        [last, wide, first] := by decide +kernel
    rw [window_of_newest hnewest hcutoff, hrecent, hsorted]
    rfl
  have hstrength : s.minStrength ≠ .nan := by decide +kernel
  obtain ⟨-, pairs, hpairs, hkeys, htells, -⟩ :=
    commitCouplings_exact s [last, wide, first, old] hwindow hstrength
  have hsuffices : Suffices s [last, wide, first] "a.py" "b.py" := by decide +kernel
  exact ⟨hwindow, hstrength, pairs, hpairs,
    (hkeys "a.py" "b.py").2 ⟨by decide +kernel, hsuffices⟩, htells⟩

end Coupling
end CodeSurvey
