/-
# The bus factor

The authors of the commits, the most active first, are counted until they made half of all commits.
What is compared with a half is a sum of rounded shares, so counting can go on where the authors
counted made exactly half: then one author more is counted than needed
(`busFactor_misses_even_half`). That is the only way in which the bus factor differs from the least
number of authors who made half of all commits, up to its cap (`busFactor_of_leastHalf`).

`countToHalf_near` follows the loop: as long as it goes on the authors counted made at most half of
all commits, and where it stops before the cap they made at least half. The numbers of commits that
it meets are those of the authors, the greatest first (`map_commits_ranked`), and no commit is lost
or counted twice (`sum_activity`).
-/

import CodeSurvey.Proofs.Contributor.Shares
import CodeSurvey.Proofs.Keyed
import Mathlib.Algebra.BigOperators.Ring.Finset
import Mathlib.Order.Bounds.Basic

namespace CodeSurvey
namespace Contributor

/-- The number of commits that an author made. -/
def madeBy (commits : List Commit) (author : String) : Nat := commits.countP (authorOf · == author)

/-- The numbers of commits that the authors made, the greatest first. -/
def activity (commits : List Commit) : List Nat :=
  ((commits.map authorOf).eraseDups.map (madeBy commits)).mergeSort fun m n => n ≤ m

/-- Whether so many of the most active authors made half of all commits together. -/
def HoldsHalf (commits : List Commit) (k : Nat) : Prop :=
  commits.length ≤ 2 * ((activity commits).take k).sum

instance (commits : List Commit) (k : Nat) : Decidable (HoldsHalf commits k) :=
  inferInstanceAs (Decidable (_ ≤ _))

section Activity

variable (commits : List Commit)

theorem byAuthor_eq : byAuthor commits =
    (commits.map authorOf).eraseDups.map fun a => (a, commits.filter (authorOf · == a)) :=
  Keyed.foldl_modify_group authorOf commits

theorem activity_perm :
    (activity commits).Perm ((commits.map authorOf).eraseDups.map (madeBy commits)) :=
  List.mergeSort_perm _ _

/-- No commit is lost or counted twice. -/
theorem sum_activity : (activity commits).sum = commits.length := by
  have hgroups := (flatMap_filter_perm authorOf (nodup_eraseDups (commits.map authorOf))
    fun c (hc : c ∈ commits) => List.mem_eraseDups.2 (List.mem_map_of_mem hc)).length_eq
  rw [List.length_flatMap] at hgroups
  rw [(activity_perm commits).sum_eq, ← hgroups]
  refine congrArg List.sum (List.map_congr_left fun a _ => ?_)
  exact List.countP_eq_length_filter

/-- Each author made some commit. -/
theorem pos_of_mem_activity {n : Nat} (h : n ∈ activity commits) : 0 < n := by
  obtain ⟨a, ha, rfl⟩ := List.mem_map.1 ((activity_perm commits).mem_iff.1 h)
  obtain ⟨c, hc, rfl⟩ := List.mem_map.1 (List.mem_eraseDups.1 ha)
  exact List.countP_pos_iff.2 ⟨c, hc, BEq.rfl⟩

/-- The contributors in the order in which they are counted have the numbers of
commits of the authors. -/
theorem map_commits_ranked :
    ((ofCommits commits).mergeSort fun a b => b.commits ≤ a.commits).map (·.commits) =
      (activity commits).map fun n : Nat => (n : Int) := by
  have hcommits : ((byAuthor commits).map fun g => ofCommitsBy g.1 g.2).map (·.commits) =
      ((commits.map authorOf).eraseDups.map (madeBy commits)).map fun n : Nat => (n : Int) := by
    rw [byAuthor_eq, List.map_map, List.map_map, List.map_map]
    refine List.map_congr_left fun a _ => ?_
    exact congrArg Int.ofNat List.countP_eq_length_filter.symm
  have hperm : (((ofCommits commits).mergeSort fun a b => b.commits ≤ a.commits).map
      (·.commits)).Perm
      ((activity commits).map fun n : Nat => (n : Int)) := by
    refine (((List.mergeSort_perm _ _).trans (List.mergeSort_perm _ _)).map _).trans ?_
    rw [hcommits]
    exact ((activity_perm commits).map _).symm
  have hranked : ((ofCommits commits).mergeSort fun a b => b.commits ≤ a.commits).Pairwise
      fun a b => decide (b.commits ≤ a.commits) = true := by
    refine List.pairwise_mergeSort (fun a b c hab hbc => ?_) (fun a b => ?_) _
    · rw [decide_eq_true_eq] at *
      exact Int.le_trans hbc hab
    · rw [Bool.or_eq_true, decide_eq_true_eq, decide_eq_true_eq]
      exact Int.le_total b.commits a.commits
  have hactivity : (activity commits).Pairwise fun m n => decide (n ≤ m) = true := by
    refine List.pairwise_mergeSort (fun a b c hab hbc => ?_) (fun a b => ?_) _
    · rw [decide_eq_true_eq] at *
      exact Nat.le_trans hbc hab
    · rw [Bool.or_eq_true, decide_eq_true_eq, decide_eq_true_eq]
      exact Nat.le_total b a
  have hleft : (((ofCommits commits).mergeSort fun a b => b.commits ≤ a.commits).map
      (·.commits)).Pairwise
      fun m n => n ≤ m := List.pairwise_map.2 (hranked.imp fun h => of_decide_eq_true h)
  have hright : ((activity commits).map fun n : Nat => (n : Int)).Pairwise fun m n => n ≤ m :=
    List.pairwise_map.2 (hactivity.imp fun h => Int.ofNat_le.2 (of_decide_eq_true h))
  exact List.Perm.eq_of_pairwise (fun m n _ _ hmn hnm => Int.le_antisymm hnm hmn) hleft hright hperm

end Activity

/-- Counting looks only at the numbers of commits. -/
theorem countToHalf_congr {cs ds : List Contributor} (h : cs.map (·.commits) = ds.map (·.commits))
    (all : Nat) (x : Binary64) (counted : Nat) :
    countToHalf all x counted cs = countToHalf all x counted ds := by
  induction cs generalizing ds x counted with
  | nil =>
    obtain rfl := List.map_eq_nil_iff.1 h.symm
    rfl
  | cons c cs ih =>
    obtain ⟨d, ds, rfl, hd, hds⟩ := List.map_eq_cons_iff.1 h.symm
    simp only [countToHalf, hd, ih hds.symm]

/-- One more contributor is counted, and counting stops at a half or at the cap. -/
theorem countToHalf_cons {all counted : Nat} {x r : Binary64} {c : Contributor}
    (hr : ratio c.commits all = .ok r) (rest : List Contributor) :
    countToHalf all x counted (c :: rest) =
      if half.le (x + r * hundred) || decide (busFactorCap ≤ counted + 1) then .ok (counted + 1)
      else countToHalf all (x + r * hundred) (counted + 1) rest := by
  simp only [countToHalf, hr, bind, Except.bind, pure, Except.pure]

/-- **The loop.** While contributors are counted, those counted so far made at most half of all
commits; where counting stops below the cap, they made at least half. -/
theorem countToHalf_near {w all : Nat} (hw : FineStep w) (hall : 0 < all) (hfew : all ≤ 2 ^ 45)
    {ns : List Nat} {cs : List Contributor}
    (hcs : cs.map (·.commits) = ns.map fun n : Nat => (n : Int)) {x : Binary64} {made counted : Nat}
    (hx : IsShare w all x made (3 * counted)) (hcap : counted < busFactorCap)
    (hsum : made + ns.sum = all) (hmade : 2 * made ≤ all) :
    ∃ i, 0 < i ∧ i ≤ ns.length ∧ countToHalf all x counted cs = .ok (counted + i) ∧
      (∀ j, 0 < j → j < i → counted + j < busFactorCap ∧ 2 * (made + (ns.take j).sum) ≤ all) ∧
      (counted + i = busFactorCap ∨ all ≤ 2 * (made + (ns.take i).sum)) := by
  have hten : busFactorCap = 10 := rfl
  induction ns generalizing cs x made counted with
  | nil =>
    rw [List.sum_nil] at hsum
    omega
  | cons n ns ih =>
    obtain ⟨c, rest, rfl, hc, hrest⟩ := List.map_eq_cons_iff.1 hcs
    rw [List.sum_cons] at hsum
    have hn : c.commits = (n : Int) := hc
    obtain ⟨r, hr, hshare⟩ := ratio_isShare hw hall (show n ≤ all by omega)
    rw [← hn] at hr
    have hnext : IsShare w all (x + r * hundred) (made + n) (3 * (counted + 1)) :=
      hx.add hw hall hshare (by omega) (by omega)
    rw [countToHalf_cons hr]
    split_ifs with hstop
    · refine ⟨1, Nat.one_pos, by simp, rfl, fun j _ _ => by omega, ?_⟩
      rw [Bool.or_eq_true, decide_eq_true_eq] at hstop
      rcases hstop with hhalf | hlast
      · have := mt (hnext.not_half_le hw hfew (by omega)) (not_not.2 hhalf)
        refine .inr ?_
        rw [List.take_one, List.head?_cons, Option.toList_some, List.sum_singleton]
        omega
      · exact .inl (by omega)
    · rw [Bool.or_eq_true, decide_eq_true_eq, not_or] at hstop
      have hbelow : 2 * (made + n) ≤ all := by
        by_contra hmost
        exact hstop.1 (hnext.half_le hw hfew (by omega) (by omega))
      obtain ⟨i, hi, hle, hok, hwhile, hend⟩ := ih hrest hnext (by omega) (by omega) hbelow
      refine ⟨i + 1, Nat.succ_pos i, by simpa using hle, ?_, ?_, ?_⟩
      · rw [hok, Nat.add_right_comm, Nat.add_assoc]
      · rintro (_ | j) hj hji
        · omega
        · rw [List.take_succ_cons, List.sum_cons]
          rcases Nat.eq_zero_or_pos j with rfl | hpos
          · rw [List.take_zero, List.sum_nil]
            omega
          · have := hwhile j hpos (by omega)
            omega
      · rw [List.take_succ_cons, List.sum_cons]
        omega

/-- The most active authors made more commits together than fewer of them. -/
theorem sum_take_lt (commits : List Commit) {j k : Nat} (hjk : j < k)
    (hk : k ≤ (activity commits).length) :
    ((activity commits).take j).sum < ((activity commits).take k).sum := by
  obtain ⟨d, rfl⟩ := Nat.exists_eq_add_of_lt hjk
  have hsome : ((activity commits).drop j).take (d + 1) ≠ [] := by
    rw [ne_eq, ← List.length_eq_zero_iff, List.length_take, List.length_drop]
    omega
  rw [Nat.add_assoc, List.take_add, List.sum_append]
  refine Nat.lt_add_of_pos_right (List.sum_pos _ (fun n hn => ?_) hsome)
  exact pos_of_mem_activity commits (List.mem_of_mem_drop (List.mem_of_mem_take hn))

/-- The bus factor of contributors is found by counting them, the most active
first, among all commits. -/
theorem busFactor_ofCommits {commits : List Commit} (hne : commits ≠ []) :
    busFactor (ofCommits commits) = countToHalf commits.length .zero 0
      ((ofCommits commits).mergeSort fun a b => b.commits ≤ a.commits) := by
  have hperm : ((ofCommits commits).map (·.commits)).Perm ((activity commits).map fun n : Nat =>
      (n : Int)) := by
    rw [← map_commits_ranked]
    exact ((List.mergeSort_perm _ _).map _).symm
  have htotal : total ((ofCommits commits).map (·.commits)) = commits.length := by
    have hsum : total ((ofCommits commits).map (·.commits)) =
        ((ofCommits commits).map (·.commits)).sum := rfl
    rw [hsum, hperm.sum_eq, ← Nat.cast_list_sum, sum_activity]
  have hpos := List.length_pos_iff.2 hne
  unfold busFactor
  dsimp only
  rw [htotal, if_neg (by omega), Int.toNat_natCast]

/-- Some number of the most active authors made half of all commits, and there is a least one. -/
theorem exists_leastHalf (commits : List Commit) : ∃ k, IsLeast {k | HoldsHalf commits k} k := by
  have hall : HoldsHalf commits (activity commits).length := by
    rw [HoldsHalf, List.take_length, sum_activity]
    omega
  exact ⟨Nat.find ⟨_, hall⟩, Nat.find_spec ⟨_, hall⟩, fun k hk => Nat.find_min' ⟨_, hall⟩ hk⟩

/-- **The bus factor is the least number of authors who made half of all commits,** up to its cap,
and one more at most where that many authors made exactly half. Up to `2 ^ 45` commits rounding does
not hide a single one; among more it might. -/
theorem busFactor_of_leastHalf {commits : List Commit} (hne : commits ≠ [])
    (hfew : commits.length ≤ 2 ^ 45) :
    ∃ k n, IsLeast {k | HoldsHalf commits k} k ∧ busFactor (ofCommits commits) = .ok n ∧
      min busFactorCap k ≤ n ∧ n ≤ min busFactorCap (k + 1) ∧
      (n ≠ min busFactorCap k → commits.length = 2 * ((activity commits).take k).sum) := by
  obtain ⟨k, hk⟩ := exists_leastHalf commits
  obtain ⟨w, hw⟩ := exists_fineStep
  have hall : 0 < commits.length := List.length_pos_iff.2 hne
  have hsum : 0 + (activity commits).sum = commits.length := by rw [Nat.zero_add, sum_activity]
  have hstart : 0 < busFactorCap := by decide
  obtain ⟨i, hi, hle, hok, hwhile, hend⟩ :=
    countToHalf_near hw hall hfew (map_commits_ranked commits)
    (isShare_zero w commits.length) hstart hsum (by omega)
  simp only [Nat.zero_add] at hok hwhile hend
  have hhalf : commits.length ≤ 2 * ((activity commits).take k).sum := hk.1
  have hleast : ∀ j, commits.length ≤ 2 * ((activity commits).take j).sum → k ≤ j :=
    fun j hj => hk.2 hj
  have hpos : 0 < k := by
    by_contra hzero
    obtain rfl : k = 0 := by omega
    rw [List.take_zero, List.sum_nil] at hhalf
    omega
  have hcap : i ≤ busFactorCap := by
    rcases Nat.lt_or_ge 1 i with hmany | hone
    · have := (hwhile (i - 1) (by omega) (by omega)).1
      omega
    · exact Nat.le_trans hone (by decide)
  have hlower : min busFactorCap k ≤ i := by
    rcases hend with hend | hend
    · omega
    · have := hleast i hend
      omega
  have hupper : i ≤ k + 1 := by
    by_contra hmore
    have hmost := sum_take_lt commits (Nat.lt_add_one k) (by omega)
    have := (hwhile (k + 1) (Nat.succ_pos k) (by omega)).2
    omega
  refine ⟨k, i, hk, (busFactor_ofCommits hne).trans hok, hlower, by omega, fun hdiffers => ?_⟩
  -- Counting went on after `k` authors, so they had made half of all commits at most.
  have := (hwhile k hpos (by omega)).2
  omega

theorem ok_of_toOption {n : Nat} {r : Except Failure Nat} (h : r.toOption = some n) :
    r = .ok n := by
  cases r with
  | error e => cases h
  | ok m => exact congrArg Except.ok (Option.some.inj h)

/-- Commits by some authors, one each. -/
def commitsBy (authors : List String) : List Commit := authors.map fun a => { author := a }

/-- Of five commits two are by one author, and two by no known one. -/
theorem busFactor_of_leastHalf_of_two_pairs :
    let commits := commitsBy ["ann", "", "bob", "unknown", "ann"]
    commits ≠ [] ∧ commits.length ≤ 2 ^ 45 ∧ IsLeast {k | HoldsHalf commits k} 2 ∧
      busFactor (ofCommits commits) = .ok 2 := by
  intro commits
  have hne : commits ≠ [] := by decide
  have hfew : commits.length ≤ 2 ^ 45 := by decide
  have hactivity : activity commits = [2, 2, 1] := by
    have hcounts : (commits.map authorOf).eraseDups.map (madeBy commits) = [2, 2, 1] := by decide
    rw [activity, hcounts]
    exact List.mergeSort_of_pairwise (by decide)
  have hleast : IsLeast {k | HoldsHalf commits k} 2 := by
    simp only [HoldsHalf, hactivity]
    refine ⟨by decide, fun k hk => ?_⟩
    match k with
    | 0 | 1 => exact absurd hk (by decide)
    | k + 2 => exact Nat.le_add_left 2 k
  obtain ⟨k, n, hk, hn, hlower, hupper, hexact⟩ := busFactor_of_leastHalf hne hfew
  obtain rfl := hk.unique hleast
  have htwo : n = 2 := by
    by_contra hother
    have := hexact hother
    rw [hactivity] at this
    exact absurd this (by decide)
  exact ⟨hne, hfew, hleast, htwo ▸ hn⟩

/-- Three of six authors with one commit each made half of all commits, but their shares sum up to
less than fifty, so a fourth one is counted. -/
theorem busFactor_misses_even_half :
    let commits := commitsBy ["a", "b", "c", "d", "e", "f"]
    IsLeast {k | HoldsHalf commits k} 3 ∧ busFactor (ofCommits commits) = .ok 4 := by
  intro commits
  have hactivity : activity commits = [1, 1, 1, 1, 1, 1] := by
    have hcounts : (commits.map authorOf).eraseDups.map (madeBy commits) =
        [1, 1, 1, 1, 1, 1] := by decide
    rw [activity, hcounts]
    exact List.mergeSort_of_pairwise (by decide)
  refine ⟨?_, ?_⟩
  · simp only [HoldsHalf, hactivity]
    refine ⟨by decide, fun k hk => ?_⟩
    match k with
    | 0 | 1 | 2 => exact absurd hk (by decide)
    | k + 3 => exact Nat.le_add_left 3 k
  · have hcount : (countToHalf 6 .zero 0
        (List.replicate 6 { author := "", commits := 1 })).toOption = some 4 := by
      decide +kernel
    have hranked : ((ofCommits commits).mergeSort fun a b => b.commits ≤ a.commits).map
        (·.commits) =
        (List.replicate 6 { author := "", commits := 1 } : List Contributor).map (·.commits) := by
      rw [map_commits_ranked, hactivity]
      rfl
    rw [busFactor_ofCommits (by decide), countToHalf_congr hranked]
    exact ok_of_toOption hcount

end Contributor
end CodeSurvey
