/-
# Evidence of groups

The evidence of a group is one piece for each two of its paths, whichever of them comes first
(`evidenceFor_laterPairs`). A path has at most one key, so two paths meet in at most one of the
groups by key, and the groups of a size from two up to a maximum give exactly one piece of evidence
for two paths that stand in one such group together, and none for other two paths
(`evidenceFor_groupEvidence`).
-/

import CodeSurvey.Coupling.Structure
import CodeSurvey.Proofs.Coupling.Evidence
import CodeSurvey.Proofs.Coupling.Tally

namespace CodeSurvey
namespace Coupling

/-- Where items give one value or none, and at most one item gives it, the list
gives it at most once. -/
theorem flatMap_of_unique {α β : Type} {f : α → List β} {p : α → Prop} [DecidablePred p] {value : β}
    {xs : List α} (hxs : xs.Nodup) (hf : ∀ x ∈ xs, f x = if p x then [value] else [])
    (hunique : ∀ x ∈ xs, ∀ y ∈ xs, p x → p y → x = y) :
    xs.flatMap f = if ∃ x ∈ xs, p x then [value] else [] := by
  induction xs with
  | nil => simp
  | cons x xs ih =>
    rw [List.nodup_cons] at hxs
    have hrest := ih hxs.2 (fun y hy => hf y (List.mem_cons_of_mem x hy)) fun y hy z hz =>
      hunique y (List.mem_cons_of_mem x hy) z (List.mem_cons_of_mem x hz)
    rw [List.flatMap_cons, hrest, hf x (List.mem_cons_self ..)]
    by_cases hx : p x
    · have hnone : ¬∃ y ∈ xs, p y := by
        rintro ⟨y, hy, hpy⟩
        have heq := hunique x (List.mem_cons_self ..) y (List.mem_cons_of_mem x hy) hx hpy
        exact hxs.1 (heq ▸ hy)
      rw [if_pos hx, if_neg hnone, if_pos ⟨x, List.mem_cons_self .., hx⟩, List.append_nil]
    · simp [hx]

section Piece

variable (weight : Binary64) (source : String)

/-- The order of two files does not matter to a piece of evidence for them. -/
theorem evidence_comm (a b : String) : evidence a b weight source = evidence b a weight source := by
  have hkey : orderedKey a b = orderedKey b a := by
    unfold orderedKey
    rcases Std.lt_trichotomy a b with h | rfl | h
    · rw [if_neg (String.lt_asymm h), if_pos h]
    · rfl
    · rw [if_pos h, if_neg (String.lt_asymm h)]
  rw [evidence, hkey]
  rfl

/-- A piece of evidence for two different files names them in order. -/
theorem evidence_ordered {a b : String} (hne : a ≠ b) :
    (evidence a b weight source).first < (evidence a b weight source).second := by
  show (orderedKey a b).1 < (orderedKey a b).2
  unfold orderedKey
  split
  · assumption
  · rename_i hle
    exact Std.lt_of_le_of_ne (String.not_lt.1 hle) hne

/-- A piece of evidence concerns the two files that it is for. -/
theorem concerns_evidence (a b x y : String) :
    concerns a b (evidence x y weight source) = ((x == a && y == b) || (x == b && y == a)) := by
  by_cases h : y < x
  · rw [evidence, orderedKey, if_pos h]
    show ((y == a && x == b) || (y == b && x == a)) = _
    rw [Bool.or_comm, Bool.and_comm (y == b), Bool.and_comm (y == a)]
  · rw [evidence, orderedKey, if_neg h]
    rfl

/-- One file with each of some others gives one piece of evidence for two files that are this
one and one of those. -/
theorem evidenceFor_row {a b : String} (hne : a ≠ b) (x : String) {others : List String}
    (h : others.Nodup) :
    evidenceFor (others.map fun y => evidence x y weight source) a b =
      (if x = a ∧ b ∈ others then [evidence a b weight source] else []) ++
        if x = b ∧ a ∈ others then [evidence a b weight source] else [] := by
  -- If the file is the first of two different ones, the other one has to be the second.
  have hfirst : ∀ {a b : String}, a ≠ b →
      evidenceFor (others.map fun y => evidence a y weight source) a b =
      if b ∈ others then [evidence a b weight source] else [] := by
    intro a b hne
    have hconcerns : ∀ y ∈ others, (concerns a b ∘ fun y => evidence a y weight source) y =
        (y == b) := by
      intro y _
      rw [Function.comp_apply, concerns_evidence, beq_self_eq_true, Bool.true_and,
        beq_false_of_ne hne, Bool.false_and, Bool.or_false]
    rw [evidenceFor, List.filter_map, List.filter_congr hconcerns, List.filter_beq, h.count]
    split_ifs <;> rfl
  by_cases ha : x = a
  · subst ha
    simp [hfirst hne, hne]
  · by_cases hb : x = b
    · subst hb
      rw [evidenceFor_comm, hfirst hne.symm, evidence_comm]
      simp [hne.symm]
    · have hnone : evidenceFor (others.map fun y => evidence x y weight source) a b = [] := by
        rw [evidenceFor, List.filter_eq_nil_iff]
        intro p hp
        obtain ⟨y, -, rfl⟩ := List.mem_map.1 hp
        simp [concerns_evidence, ha, hb]
      simp [hnone, ha, hb]

/-- **The evidence of a group** is one piece for each two of its paths. -/
theorem evidenceFor_laterPairs {a b : String} (hne : a ≠ b) {paths : List String}
    (h : paths.Nodup) :
    evidenceFor ((laterPairs paths).map fun (x, y) => evidence x y weight source) a b =
      if a ∈ paths ∧ b ∈ paths then [evidence a b weight source] else [] := by
  induction paths with
  | nil => simp [laterPairs, evidenceFor]
  | cons x rest ih =>
    rw [List.nodup_cons] at h
    have hsplit : evidenceFor ((laterPairs (x :: rest)).map fun (x, y) =>
        evidence x y weight source) a b =
        evidenceFor (rest.map fun y => evidence x y weight source) a b ++
          evidenceFor ((laterPairs rest).map fun (x, y) => evidence x y weight source) a b := by
      rw [evidenceFor, laterPairs, List.map_append, List.map_map, List.filter_append]
      rfl
    rw [hsplit, evidenceFor_row weight source hne x h.2, ih h.2]
    by_cases ha : x = a
    · subst ha
      simp [h.1, hne, hne.symm]
    · by_cases hb : x = b
      · subst hb
        simp [h.1, hne, hne.symm]
      · simp [ha, hb, Ne.symm ha, Ne.symm hb]

end Piece

section Groups

variable {keyOf : String → Option String} {paths : List String}

/-- The groups of paths by key: the keys in order of first mention, each with its paths in order. -/
theorem groupPaths_eq (keyOf : String → Option String) (paths : List String) :
    groupPaths keyOf paths =
      (paths.filterMap keyOf).eraseDups.map fun k =>
        (k, paths.filter fun p => keyOf p == some k) := by
  rw [groupPaths, ← Keyed.foldl_modify_group?]
  congr 1
  funext groups p
  cases keyOf p <;> rfl

/-- A group has a key that some path has, and holds the paths of this key. -/
theorem mem_groupPaths {g : String × List String} :
    g ∈ groupPaths keyOf paths ↔
      (∃ p ∈ paths, keyOf p = some g.1) ∧ g.2 = paths.filter fun p => keyOf p == some g.1 := by
  rw [groupPaths_eq, List.mem_map]
  simp only [List.mem_eraseDups, List.mem_filterMap]
  constructor
  · rintro ⟨k, hk, rfl⟩
    exact ⟨hk, rfl⟩
  · rintro ⟨hk, hgroup⟩
    exact ⟨g.1, hk, Prod.ext rfl hgroup.symm⟩

/-- The groups have different keys. -/
theorem nodup_groupPaths (keyOf : String → Option String) (paths : List String) :
    (groupPaths keyOf paths).Nodup := by
  rw [groupPaths_eq]
  exact (nodup_eraseDups _).map fun k l h => (Prod.mk.inj h).1

/-- A path stands in a group of its key only. -/
theorem keyOf_of_mem_group {g : String × List String} (hg : g ∈ groupPaths keyOf paths) {p : String}
    (hp : p ∈ g.2) : p ∈ paths ∧ keyOf p = some g.1 := by
  rw [(mem_groupPaths.1 hg).2, List.mem_filter, beq_iff_eq] at hp
  exact hp

/-- A path stands in at most one group. -/
theorem group_unique {g h : String × List String} (hg : g ∈ groupPaths keyOf paths)
    (hh : h ∈ groupPaths keyOf paths) {p : String} (hpg : p ∈ g.2) (hph : p ∈ h.2) : g = h := by
  have hkey : g.1 = h.1 :=
    Option.some.inj ((keyOf_of_mem_group hg hpg).2.symm.trans (keyOf_of_mem_group hh hph).2)
  refine Prod.ext hkey ?_
  rw [(mem_groupPaths.1 hg).2, (mem_groupPaths.1 hh).2, hkey]

/-- The paths of a group of distinct paths are distinct. -/
theorem nodup_group (hpaths : paths.Nodup) {g : String × List String}
    (hg : g ∈ groupPaths keyOf paths) : g.2.Nodup := by
  rw [(mem_groupPaths.1 hg).2]
  exact hpaths.filter _

/-- The paths of a key are the group of this key, if there is one. -/
theorem lookup_groupPaths (keyOf : String → Option String) (paths : List String) (k : String) :
    ((groupPaths keyOf paths).lookup k).getD [] = paths.filter fun p => keyOf p == some k := by
  rw [groupPaths_eq, Keyed.lookup_map]
  split_ifs with hk
  · rfl
  · refine (List.filter_eq_nil_iff.2 fun p hp hkey => hk ?_).symm
    rw [List.contains_iff_mem, List.mem_eraseDups, List.mem_filterMap]
    exact ⟨p, hp, beq_iff_eq.1 hkey⟩

variable (keyOf paths) in
/-- Whether two paths are among those of one key, and these are from two up to a maximum. -/
def Together (maximum : Nat) (a b : String) : Prop :=
  a ∈ paths ∧ b ∈ paths ∧ keyOf a ≠ none ∧ keyOf b = keyOf a ∧
    2 ≤ (paths.filter fun p => keyOf p == keyOf a).length ∧
      (paths.filter fun p => keyOf p == keyOf a).length ≤ maximum

instance (keyOf : String → Option String) (paths : List String) (maximum : Nat) (a b : String) :
    Decidable (Together keyOf paths maximum a b) :=
  inferInstanceAs (Decidable (_ ∧ _))

/-- Two paths are together if they stand in one group of the right size. -/
theorem together_iff {maximum : Nat} {a b : String} :
    Together keyOf paths maximum a b ↔
      ∃ g ∈ (groupPaths keyOf paths).filter fun g => 2 ≤ g.2.length && g.2.length ≤ maximum,
      a ∈ g.2 ∧ b ∈ g.2 := by
  simp only [List.mem_filter, Bool.and_eq_true, decide_eq_true_eq]
  constructor
  · rintro ⟨ha, hb, hkey, hsame, hsize⟩
    obtain ⟨k, hk⟩ := Option.ne_none_iff_exists'.1 hkey
    rw [hk] at hsame hsize
    refine ⟨(k, paths.filter fun p => keyOf p == some k),
      ⟨mem_groupPaths.2 ⟨⟨a, ha, hk⟩, rfl⟩, hsize⟩, ?_, ?_⟩
    · exact List.mem_filter.2 ⟨ha, beq_iff_eq.2 hk⟩
    · exact List.mem_filter.2 ⟨hb, beq_iff_eq.2 hsame⟩
  · rintro ⟨g, ⟨hg, hsize⟩, ha, hb⟩
    obtain ⟨ha, hka⟩ := keyOf_of_mem_group hg ha
    obtain ⟨hb, hkb⟩ := keyOf_of_mem_group hg hb
    rw [(mem_groupPaths.1 hg).2, ← hka] at hsize
    exact ⟨ha, hb, hka ▸ Option.some_ne_none g.1, hkb.trans hka.symm, hsize⟩

/-- Each piece of evidence of groups of distinct paths is for two different ones of them. -/
theorem exists_of_mem_groupEvidence (hpaths : paths.Nodup) {maximum : Nat} {weight : Binary64}
    {source : String} {p : CouplingPair}
    (hp : p ∈ groupEvidence maximum weight source (groupPaths keyOf paths)) :
    ∃ a b, a ≠ b ∧ p = evidence a b weight source := by
  obtain ⟨g, hg, hp⟩ := List.mem_flatMap.1 hp
  obtain ⟨⟨a, b⟩, hk, rfl⟩ := List.mem_map.1 hp
  exact ⟨a, b, ne_of_mem_laterPairs (nodup_group hpaths (List.mem_filter.1 hg).1) hk, rfl⟩

/-- **The evidence of groups** is one piece for each two paths that are together. -/
theorem evidenceFor_groupEvidence (hpaths : paths.Nodup) (maximum : Nat) (weight : Binary64)
    (source : String) {a b : String} (hne : a ≠ b) :
    evidenceFor (groupEvidence maximum weight source (groupPaths keyOf paths)) a b =
      if Together keyOf paths maximum a b then [evidence a b weight source] else [] := by
  simp only [together_iff]
  rw [evidenceFor, groupEvidence, List.filter_flatMap]
  refine flatMap_of_unique ((nodup_groupPaths keyOf paths).filter _) (fun g hg =>
    ?_) fun g hg h hh hgp hhp => ?_
  · exact evidenceFor_laterPairs weight source hne (nodup_group hpaths (List.mem_filter.1 hg).1)
  · exact group_unique (List.mem_filter.1 hg).1 (List.mem_filter.1 hh).1 hgp.1 hhp.1

end Groups

end Coupling
end CodeSurvey
