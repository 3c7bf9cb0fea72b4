/-
# What the tally holds

A commit qualifies if it changes two paths or more and not more than the limit; the paths
count once each, and an empty path does not count (`Qualifies`). One pass over some commits
leaves, for each file, the number of qualifying commits that change it
(`Tally.changesTo_ofCommits`), and for each two files in order what the qualifying commits
that change both of them say (`Tally.pairs_ofCommits`): how many they are, who made them, and
the latest date (`CoChange.count_of`, `CoChange.mem_authors_of`, `CoChange.latest_of`). So
both range over the same commits.
-/

import CodeSurvey.Coupling.Commits
import CodeSurvey.Proofs.Keyed
import CodeSurvey.Proofs.Moment
import CodeSurvey.Proofs.Sorting
import Mathlib.Data.Finset.Card

namespace CodeSurvey
namespace Coupling

/-- The paths that a commit changes; an empty one does not count. -/
def touched (c : Commit) : Finset String := (c.changed.filter (· ≠ "")).toFinset

/-- Whether a commit changes two paths or more, and not more than the limit. -/
def Qualifies (s : CouplingSettings) (c : Commit) : Prop :=
  2 ≤ (touched c).card ∧ ((touched c).card : Int) ≤ s.maxFanout

instance (s : CouplingSettings) : DecidablePred (Qualifies s) := fun c =>
  inferInstanceAs (Decidable (2 ≤ (touched c).card ∧ ((touched c).card : Int) ≤ s.maxFanout))

/-- The commits among some that qualify. -/
def qualifying (s : CouplingSettings) (commits : List Commit) : List Commit :=
  commits.filter (Qualifies s ·)

/-- The qualifying commits that change a file. -/
def changing (s : CouplingSettings) (commits : List Commit) (a : String) : List Commit :=
  (qualifying s commits).filter (a ∈ touched ·)

/-- The qualifying commits that change two files together. -/
def changingBoth (s : CouplingSettings) (commits : List Commit) (a b : String) : List Commit :=
  (qualifying s commits).filter fun c => a ∈ touched c ∧ b ∈ touched c

theorem mem_changedPaths {c : Commit} {path : String} :
    path ∈ changedPaths c ↔ path ∈ touched c := by
  rw [changedPaths, Text.mem_sortedDistinct, touched, List.mem_toFinset, List.mem_filter,
    List.mem_filter]
  simp

theorem pairwise_changedPaths (c : Commit) : (changedPaths c).Pairwise (· < ·) :=
  Text.pairwise_sortedDistinct _

theorem nodup_changedPaths (c : Commit) : (changedPaths c).Nodup :=
  (pairwise_changedPaths c).imp fun {_ _} hab => Std.ne_of_lt hab

theorem length_changedPaths (c : Commit) : (changedPaths c).length = (touched c).card := by
  rw [← List.toFinset_card_of_nodup (nodup_changedPaths c)]
  congr 1
  ext path
  rw [List.mem_toFinset, mem_changedPaths]

theorem isEvidence_changedPaths (s : CouplingSettings) (c : Commit) :
    isEvidence s (changedPaths c) = decide (Qualifies s c) := by
  rw [isEvidence, length_changedPaths, ← Bool.decide_and]
  rfl

/-- Of items in strict order, the pairs of one and a later one are the pairs in order. -/
theorem mem_laterPairs {xs : List String} (h : xs.Pairwise (· < ·)) {a b : String} :
    (a, b) ∈ laterPairs xs ↔ a < b ∧ a ∈ xs ∧ b ∈ xs := by
  induction xs with
  | nil => simp [laterPairs]
  | cons x xs ih =>
    obtain ⟨hx, hxs⟩ := List.pairwise_cons.1 h
    rw [laterPairs, List.mem_append, List.mem_map, ih hxs, List.mem_cons, List.mem_cons]
    constructor
    · rintro (⟨y, hy, heq⟩ | ⟨hab, ha, hb⟩)
      · obtain ⟨rfl, rfl⟩ := Prod.mk.inj heq
        exact ⟨hx y hy, .inl rfl, .inr hy⟩
      · exact ⟨hab, .inr ha, .inr hb⟩
    · rintro ⟨hab, rfl | ha, rfl | hb⟩
      · exact absurd hab (String.lt_irrefl _)
      · exact .inl ⟨b, hb, rfl⟩
      · exact absurd hab (String.lt_asymm (hx a ha))
      · exact .inr ⟨hab, ha, hb⟩

theorem fst_mem_of_mem_laterPairs {α : Type} {xs : List α} {k : α × α} (h : k ∈ laterPairs xs) :
    k.1 ∈ xs := by
  induction xs with
  | nil => exact absurd h List.not_mem_nil
  | cons x xs ih =>
    rw [laterPairs, List.mem_append, List.mem_map] at h
    rcases h with ⟨y, -, rfl⟩ | h
    · exact List.mem_cons_self ..
    · exact List.mem_cons_of_mem x (ih h)

/-- Of distinct items, one and a later one are different. -/
theorem ne_of_mem_laterPairs {α : Type} {xs : List α} (h : xs.Nodup) {k : α × α}
    (hk : k ∈ laterPairs xs) : k.1 ≠ k.2 := by
  induction xs with
  | nil => exact absurd hk List.not_mem_nil
  | cons x xs ih =>
    obtain ⟨hx, hxs⟩ := List.nodup_cons.1 h
    rw [laterPairs, List.mem_append, List.mem_map] at hk
    rcases hk with ⟨y, hy, rfl⟩ | hk
    · exact fun (he : x = y) => hx (he ▸ hy)
    · exact ih hxs hk

theorem nodup_laterPairs {α : Type} {xs : List α} (h : xs.Nodup) : (laterPairs xs).Nodup := by
  induction xs with
  | nil => exact List.nodup_nil
  | cons x xs ih =>
    obtain ⟨hx, hxs⟩ := List.nodup_cons.1 h
    rw [laterPairs, List.nodup_append]
    refine ⟨hxs.map fun y z hyz => (Prod.mk.inj hyz).2, ih hxs, ?_⟩
    rintro k hk l hl rfl
    obtain ⟨y, -, rfl⟩ := List.mem_map.1 hk
    exact hx (fst_mem_of_mem_laterPairs hl)

/-- The keys of a commit are the pairs in order of files that it changes. -/
theorem contains_laterPairs (c : Commit) {a b : String} (h : a < b) :
    (laterPairs (changedPaths c)).contains (a, b) = decide (a ∈ touched c ∧ b ∈ touched c) := by
  rw [Bool.eq_iff_iff, List.contains_iff_mem, decide_eq_true_eq,
    mem_laterPairs (pairwise_changedPaths c), mem_changedPaths, mem_changedPaths]
  exact ⟨And.right, fun hab => ⟨h, hab⟩⟩

/-- The pairs in order of files that some qualifying commit changes, in order of first mention. -/
def changedPairs (s : CouplingSettings) (commits : List Commit) : List (String × String) :=
  ((qualifying s commits).flatMap fun c => laterPairs (changedPaths c)).eraseDups

theorem mem_changedPairs {s : CouplingSettings} {commits : List Commit} {a b : String} :
    (a, b) ∈ changedPairs s commits ↔ a < b ∧ changingBoth s commits a b ≠ [] := by
  rw [changedPairs, List.mem_eraseDups, List.mem_flatMap, changingBoth, ne_eq,
    List.filter_eq_nil_iff]
  simp only [mem_laterPairs (pairwise_changedPaths _), mem_changedPaths, decide_eq_true_eq,
    not_forall, not_not]
  constructor
  · rintro ⟨c, hc, hab, hboth⟩
    exact ⟨hab, c, hc, hboth⟩
  · rintro ⟨hab, c, hc, hboth⟩
    exact ⟨c, hc, hab, hboth⟩

namespace CoChange

/-- What some commits say of two files that they all change. -/
def of (commits : List Commit) : CoChange := commits.foldl CoChange.add {}

theorem of_concat (commits : List Commit) (c : Commit) : of (commits ++ [c]) = (of commits).add c :=
  List.foldl_concat ..

theorem count_of (commits : List Commit) : (of commits).count = commits.length := by
  induction commits using List.reverseRecOn with
  | nil => rfl
  | append_singleton commits c ih =>
    rw [of_concat, add, ih, List.length_append, List.length_singleton]

theorem mem_authors_of {commits : List Commit} {name : String} :
    name ∈ (of commits).authors ↔ name ≠ "" ∧ ∃ c ∈ commits, c.author = name := by
  induction commits using List.reverseRecOn with
  | nil => simp [of]
  | append_singleton commits c ih =>
    have hadd : name ∈ ((of commits).add c).authors ↔
        name ∈ (of commits).authors ∨ (c.author ≠ "" ∧ name = c.author) := by
      rw [add]
      by_cases hauthor : c.author = ""
      · simp [hauthor]
      · simp [hauthor, or_comm]
    rw [of_concat, hadd, ih]
    constructor
    · rintro (⟨hne, d, hd, rfl⟩ | ⟨hne, rfl⟩)
      · exact ⟨hne, d, List.mem_append_left _ hd, rfl⟩
      · exact ⟨hne, c, List.mem_append_right _ (List.mem_singleton_self c), rfl⟩
    · rintro ⟨hne, d, hd, rfl⟩
      rcases List.mem_append.1 hd with hd | hd
      · exact .inl ⟨hne, d, hd, rfl⟩
      · rw [List.mem_singleton.1 hd] at hne ⊢
        exact .inr ⟨hne, rfl⟩

theorem latest_of (commits : List Commit) :
    (of commits).latest = latestDate (commits.map (·.date)) := by
  induction commits using List.reverseRecOn with
  | nil => rfl
  | append_singleton commits c ih =>
    rw [of_concat, List.map_append, List.map_singleton, latestDate_concat, ← ih, add]

end CoChange

namespace Tally

/-- Only commits that qualify count. -/
theorem ofCommits_eq (s : CouplingSettings) (commits : List Commit) :
    ofCommits s commits = (qualifying s commits).foldl add {} := by
  rw [qualifying, List.foldl_filter, ofCommits]
  congr 1
  funext t c
  rw [step, isEvidence_changedPaths]

theorem changes_foldl_add (commits : List Commit) (t : Tally) :
    (commits.foldl add t).changes = commits.foldl (fun counts c =>
      (changedPaths c).foldl (fun counts path => Keyed.modify path 0 (· + 1) counts) counts)
        t.changes :=
  (List.foldl_hom changes fun _ _ => rfl).symm

theorem pairs_foldl_add (commits : List Commit) (t : Tally) :
    (commits.foldl add t).pairs = commits.foldl (fun pairs c =>
      (laterPairs (changedPaths c)).foldl (fun pairs k => Keyed.modify k {} (·.add c) pairs)
        pairs) t.pairs :=
  (List.foldl_hom pairs fun _ _ => rfl).symm

/-- **The changes to a file.** The tally holds the number of qualifying commits that change it. -/
theorem changesTo_ofCommits (s : CouplingSettings) (commits : List Commit) (a : String) :
    (ofCommits s commits).changesTo a = (changing s commits a).length := by
  have hnodup : ∀ c ∈ qualifying s commits, (changedPaths c).Nodup :=
    fun c _ => nodup_changedPaths c
  have hchanging : ((qualifying s commits).filter fun c => (changedPaths c).contains a) =
      changing s commits a := by
    refine List.filter_congr fun c _ => ?_
    rw [Bool.eq_iff_iff, List.contains_iff_mem, decide_eq_true_eq, mem_changedPaths]
  rw [changesTo, ofCommits_eq, changes_foldl_add,
    Keyed.foldl_modify_mentions changedPaths 0 (fun n _ => n + 1) hnodup, Keyed.lookup_map,
    hchanging, List.foldl_add_const, Nat.zero_add, Nat.one_mul]
  split_ifs with hkeys
  · rfl
  · -- No qualifying commit changes a file that the tally does not know.
    refine (List.length_eq_zero_iff.2 (List.filter_eq_nil_iff.2 fun c hc ha => hkeys ?_)).symm
    rw [List.contains_iff_mem, List.mem_eraseDups, List.mem_flatMap]
    exact ⟨c, hc, mem_changedPaths.2 (of_decide_eq_true ha)⟩

/-- **The pairs of files.** The tally holds, for each two files in order that some qualifying commit
changes, what the qualifying commits that change both say of them. -/
theorem pairs_ofCommits (s : CouplingSettings) (commits : List Commit) :
    (ofCommits s commits).pairs =
      (changedPairs s commits).map fun k => (k, CoChange.of (changingBoth s commits k.1 k.2)) := by
  have hnodup : ∀ c ∈ qualifying s commits, (laterPairs (changedPaths c)).Nodup :=
    fun c _ => nodup_laterPairs (nodup_changedPaths c)
  rw [ofCommits_eq, pairs_foldl_add,
    Keyed.foldl_modify_mentions (fun c => laterPairs (changedPaths c)) {} CoChange.add hnodup]
  refine List.map_congr_left fun k hk => ?_
  have hboth : ((qualifying s commits).filter fun c => (laterPairs (changedPaths c)).contains k) =
      changingBoth s commits k.1 k.2 :=
    List.filter_congr fun c _ => contains_laterPairs c (mem_changedPairs.1 hk).1
  rw [hboth]
  rfl

end Tally

end Coupling
end CodeSurvey
