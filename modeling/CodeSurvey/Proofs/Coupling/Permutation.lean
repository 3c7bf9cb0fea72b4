/-
# Merging in another order

Signals that give the same pairs in another order merge into the same pairs, as far as their files,
weights, common changes, authors and kinds of evidence go; and the latest date of each names the
same instant (`upToSpelling_mergedOf`). Nor does the order matter to the ranks, since they depend on
the weights and the files alone (`keys_ranking_of_perm`), or to whether the weights have sums.

What the order does matter to is the spelling of a date. Of several dates that name the same latest
instant the one that comes first stays, so signals that spell it in two ways merge differently in
another order (`merge_keeps_first_spelling`). `merge_perm` says that this is all: up to the spelling
of the dates merging does not depend on the order, and where the dates given for each two files
spell each instant in one way it does not depend on it at all.
-/

import CodeSurvey.Proofs.Coupling.Merge
import CodeSurvey.Proofs.Number.Order

namespace CodeSurvey
namespace Coupling

open Binary64 (NoOverflow)

/-- A pair without its date, and the instant that its date names. -/
def upToSpelling (m : CouplingPair) : CouplingPair × Option Int :=
  ({ m with lastChanged := none }, m.lastChanged.map commitInstant)

/-- Pairs that are equal up to the spelling of their dates, and have the same dates, are equal. -/
theorem eq_of_upToSpelling {m n : CouplingPair} (h : upToSpelling m = upToSpelling n)
    (hdates : m.lastChanged = n.lastChanged) : m = n := by
  obtain ⟨a, b, w, c, as, d, ss⟩ := m
  obtain ⟨a', b', w', c', as', d', ss'⟩ := n
  simp only [upToSpelling, Prod.mk.injEq, CouplingPair.mk.injEq] at h hdates
  obtain ⟨⟨rfl, rfl, rfl, rfl, rfl, -, rfl⟩, -⟩ := h
  rw [hdates]

/-- The dates given for two files. -/
def datesFor (ps : List CouplingPair) (k : String × String) : List String :=
  (evidenceFor ps k.1 k.2).filterMap (·.lastChanged)

/-- Whether the dates given for each two files spell each instant in one way. -/
def DatesSpelledOnce (ps : List CouplingPair) : Prop :=
  ∀ p ∈ ps, SpelledOnce (datesFor ps (keyOf p))

section Perm

variable {ps qs : List CouplingPair} (h : ps.Perm qs)

include h

/-- The evidence for two files is the same in another order. -/
theorem evidenceFor_perm (a b : String) :
    (evidenceFor ps a b).Perm (evidenceFor qs a b) := h.filter _

/-- The keys of pairs do not depend on the order. -/
theorem keys_perm : (keys ps).Perm (keys qs) := by
  refine (List.perm_ext_iff_of_nodup (nodup_eraseDups _) (nodup_eraseDups _)).2 fun k => ?_
  rw [List.mem_eraseDups, List.mem_eraseDups]
  exact (h.map keyOf).mem_iff

/-- The merged pair of two files is the same up to the spelling of its date. -/
theorem upToSpelling_mergedOf (k : String × String) :
    upToSpelling (mergedOf ps k) = upToSpelling (mergedOf qs k) := by
  have hevidence := evidenceFor_perm h k.1 k.2
  have hdates := IsLatest.instant_eq (fun d => (hevidence.filterMap (·.lastChanged)).mem_iff)
    (latestDate_isLatest (datesFor ps k)) (latestDate_isLatest (datesFor qs k))
  have hweights := Binary64.sum_perm (hevidence.map (·.weight))
  have hchanges : total ((evidenceFor ps k.1 k.2).map (·.coChanges)) =
      total ((evidenceFor qs k.1 k.2).map (·.coChanges)) :=
    (hevidence.map CouplingPair.coChanges).sum_eq
  have hauthors :=
    Text.sortedDistinct_congr fun s => (hevidence.flatMap_right (·.authors)).mem_iff (a := s)
  have hsources :=
    Text.sortedDistinct_congr fun s => (hevidence.flatMap_right (·.sources)).mem_iff (a := s)
  simp only [upToSpelling, mergedOf, hweights, hchanges, hauthors, hsources]
  exact congrArg (Prod.mk _) hdates

/-- The merged pair of two files is the same where their dates spell each instant in one way. -/
theorem mergedOf_of_spelledOnce {k : String × String} (hspelling : SpelledOnce (datesFor ps k)) :
    mergedOf ps k = mergedOf qs k := by
  have hevidence := evidenceFor_perm h k.1 k.2
  have hdates : (mergedOf ps k).lastChanged = (mergedOf qs k).lastChanged :=
    IsLatest.eq_of_spelledOnce (fun d => (hevidence.filterMap (·.lastChanged)).mem_iff) hspelling
      (latestDate_isLatest (datesFor ps k)) (latestDate_isLatest (datesFor qs k))
  exact eq_of_upToSpelling (upToSpelling_mergedOf h k) hdates

end Perm

/-- Of two keys only one can come before the other. -/
theorem KeyLt.asymm {k l : String × String} (h : KeyLt k l) : ¬KeyLt l k := by
  rintro (hback | ⟨hback, hlast⟩)
  · rcases h with hfirst | ⟨hfirst, -⟩
    · exact String.lt_asymm hfirst hback
    · exact String.lt_irrefl _ (hfirst ▸ hback)
  · rcases h with hfirst | ⟨-, hlast'⟩
    · exact String.lt_irrefl _ (hback ▸ hfirst)
    · exact String.lt_asymm hlast hlast'

/-- Of two pairs only one can rank before the other. -/
theorem Outranks.asymm {p q : CouplingPair} (h : Outranks p q) : ¬Outranks q p := by
  rcases h with hlt | ⟨hsame, hkey⟩
  · rintro (hback | ⟨hback, -⟩)
    · exact Binary64.lt_asymm hlt hback
    · exact Binary64.not_lt_of_same hback hlt
  · rintro (hback | ⟨-, hback⟩)
    · exact Binary64.not_lt_of_same hsame hback
    · exact hkey.asymm hback

/-- Ranks do not depend on the dates. -/
theorem Outranks.congr {p p' q q' : CouplingPair} (hp : upToSpelling p = upToSpelling p')
    (hq : upToSpelling q = upToSpelling q') (h : Outranks p q) : Outranks p' q' := by
  have hpair : ∀ {m n : CouplingPair}, upToSpelling m = upToSpelling n → m.weight = n.weight ∧
      key m = key n := by
    intro m n hmn
    have hkey : key (upToSpelling m).1 = key (upToSpelling n).1 := by rw [hmn]
    exact ⟨congrArg (·.1.weight) hmn, hkey⟩
  obtain ⟨hpw, hpk⟩ := hpair hp
  obtain ⟨hqw, hqk⟩ := hpair hq
  rwa [Outranks, hpw, hqw, hpk, hqk] at h

/-- The keys of ranked merged pairs are in order of rank. -/
theorem pairwise_keys_ranking {ps : List CouplingPair}
    (hsums : ∀ p ∈ ps, NoOverflow ((evidenceFor ps p.first p.second).map (·.weight))) :
    ((ranking ps).map key).Pairwise fun k l => Outranks (mergedOf ps k) (mergedOf ps l) := by
  have hranked := (ranking_aggregates hsums).ranked
  rw [← map_key_ranking] at hranked
  exact List.pairwise_map.1 hranked

section Perm

variable {ps qs : List CouplingPair} (h : ps.Perm qs)

include h

/-- Whether the weights given for two files have a sum does not depend on the order. -/
theorem noOverflow_perm (a b : String) :
    NoOverflow ((evidenceFor ps a b).map (·.weight)) ↔
      NoOverflow ((evidenceFor qs a b).map (·.weight)) :=
  NoOverflow.perm ((evidenceFor_perm h a b).map _)

/-- The ranks of the merged pairs do not depend on the order. -/
theorem keys_ranking_of_perm
    (hsums : ∀ p ∈ ps, NoOverflow ((evidenceFor ps p.first p.second).map (·.weight))) :
    (ranking ps).map key = (ranking qs).map key := by
  have hsums' : ∀ p ∈ qs,
      NoOverflow ((evidenceFor qs p.first p.second).map (·.weight)) := fun p hp =>
    (noOverflow_perm h _ _).1 (hsums p (h.mem_iff.2 hp))
  refine eq_of_pairwise_of_mem_iff (fun k l => Outranks.asymm)
    (pairwise_keys_ranking hsums) ?_ fun k => ?_
  · exact (pairwise_keys_ranking hsums').imp
      (Outranks.congr (upToSpelling_mergedOf h _).symm (upToSpelling_mergedOf h _).symm)
  · exact ((keys_ranking_perm ps).trans ((keys_perm h).trans (keys_ranking_perm qs).symm)).mem_iff

/-- Ranked merged pairs are the same up to the spelling of their dates. -/
theorem upToSpelling_ranking
    (hsums : ∀ p ∈ ps, NoOverflow ((evidenceFor ps p.first p.second).map (·.weight))) :
    (ranking ps).map upToSpelling = (ranking qs).map upToSpelling := by
  rw [← map_key_ranking ps, ← map_key_ranking qs, keys_ranking_of_perm h hsums]
  generalize (ranking qs).map key = ks
  rw [List.map_map, List.map_map]
  exact List.map_congr_left fun k _ => upToSpelling_mergedOf h k

/-- Ranked merged pairs are the same where the dates given for each two files spell
each instant in one way. -/
theorem ranking_of_spelledOnce
    (hsums : ∀ p ∈ ps, NoOverflow ((evidenceFor ps p.first p.second).map (·.weight)))
    (hspelling : DatesSpelledOnce ps) : ranking ps = ranking qs := by
  rw [← map_key_ranking ps, ← map_key_ranking qs, ← keys_ranking_of_perm h hsums]
  refine List.map_congr_left fun k hk => mergedOf_of_spelledOnce h ?_
  obtain ⟨p, hp, rfl⟩ := List.mem_map.1 (List.mem_eraseDups.1 ((keys_ranking_perm ps).mem_iff.1 hk))
  exact hspelling p hp

end Perm

/-- **Merging does not depend on the order, up to the spelling of dates.** Signals with finite
weights that give the same pairs in another order merge into the same pairs, or fail alike, but for
dates that name the same instants; where the dates given for each two files spell each instant in
one way, the dates are the same too. -/
theorem merge_perm (s : CouplingSettings) {given given' : List (List CouplingPair)}
    (h : given.flatten.Perm given'.flatten) (hfinite : ∀ p ∈ given.flatten, p.weight.isFinite) :
    (merge s given).map (List.map upToSpelling) = (merge s given').map (List.map upToSpelling) ∧
      (DatesSpelledOnce given.flatten → merge s given = merge s given') := by
  have hfinite' : ∀ p ∈ given'.flatten, p.weight.isFinite := fun p hp => hfinite p (h.mem_iff.2 hp)
  by_cases hsums : ∀ p ∈ given.flatten,
    NoOverflow ((evidenceFor given.flatten p.first p.second).map (·.weight))
  · have hsums' : ∀ p ∈ given'.flatten,
        NoOverflow ((evidenceFor given'.flatten p.first p.second).map (·.weight)) := fun p hp =>
      (noOverflow_perm h _ _).1 (hsums p (h.mem_iff.2 hp))
    have hmerge : merge s given = .ok (upTo s.maxPairs (ranking given.flatten)) :=
      mergePairs_eq_upTo hfinite hsums s.maxPairs
    have hmerge' : merge s given' = .ok (upTo s.maxPairs (ranking given'.flatten)) :=
      mergePairs_eq_upTo hfinite' hsums' s.maxPairs
    rw [hmerge, hmerge']
    refine ⟨?_, fun hspelling => by rw [ranking_of_spelledOnce h hsums hspelling]⟩
    show Except.ok _ = Except.ok _
    rw [← upTo_map, ← upTo_map, upToSpelling_ranking h hsums]
  · -- Both fail, at a pair whose weights have no sum.
    simp only [not_forall] at hsums
    obtain ⟨p, hp, hover⟩ := hsums
    rw [merge_overflows s hfinite hp hover,
      merge_overflows s hfinite' (h.mem_iff.1 hp) fun hfits =>
        hover ((noOverflow_perm h _ _).2 hfits)]
    exact ⟨rfl, fun _ => rfl⟩

/-- Three signals that name one pair in both orders, with dates in several zones, merge into the
same pairs from the last signal to the first. -/
theorem merge_perm_of_three_signals :
    let given : List (List CouplingPair) :=
      [[{ first := "src/b.py", second := "src/a.py", weight := .ofInt 2,
          lastChanged := some "2024-05-01T23:00:00-05:00" }],
        [{ first := "src/a.py", second := "src/c.py", weight := .ofInt 4,
           lastChanged := some "2024-05-02T04:00:00Z" }],
        [{ first := "src/a.py", second := "src/b.py", weight := .ofInt 3,
           lastChanged := some "2024-05-02T01:00:00Z" }]]
    given.flatten.Perm given.reverse.flatten ∧ (∀ p ∈ given.flatten, p.weight.isFinite) ∧
      DatesSpelledOnce given.flatten ∧ merge {} given = merge {} given.reverse := by
  intro given
  have hperm : given.flatten.Perm given.reverse.flatten := (List.reverse_perm given).symm.flatten
  have hfinite : ∀ p ∈ given.flatten, p.weight.isFinite := by decide +kernel
  have hspelling : DatesSpelledOnce given.flatten := by
    unfold DatesSpelledOnce SpelledOnce
    decide +kernel
  exact ⟨hperm, hfinite, hspelling, (merge_perm {} hperm hfinite).2 hspelling⟩

/-- Pairs that are all about the same two files come to one merged pair. -/
theorem ranking_of_keys_eq {ps : List CouplingPair} {k : String × String} (h : keys ps = [k]) :
    ranking ps = [mergedOf ps k] := by
  rw [ranking, h, rank]
  exact List.mergeSort_singleton _

/-- **The first spelling stays.** Two signals that spell the instant of the last change in different
ways merge differently in another order. -/
theorem merge_keeps_first_spelling :
    let zulu : CouplingPair :=
      { first := "x.ts", second := "y.ts", weight := .ofInt 1,
        lastChanged := some "2024-05-02T01:00:00Z" }
    let zoned : CouplingPair :=
      { first := "x.ts", second := "y.ts", weight := .ofInt 1,
        lastChanged := some "2024-05-02T03:00:00+02:00" }
    [[zulu], [zoned]].flatten.Perm [[zoned], [zulu]].flatten ∧
      (∀ p ∈ [[zulu], [zoned]].flatten, p.weight.isFinite) ∧
      merge {} [[zulu], [zoned]] ≠ merge {} [[zoned], [zulu]] := by
  intro zulu zoned
  have hmerge : ∀ p q : CouplingPair, [p, q].Perm [zulu, zoned] →
      merge {} [[p], [q]] = .ok [mergedOf [p, q] ("x.ts", "y.ts")] := by
    intro p q hpq
    have hfinite : ∀ r ∈ [p, q], r.weight.isFinite := by
      have h : ∀ r ∈ [zulu, zoned], r.weight.isFinite := by decide +kernel
      exact fun r hr => h r (hpq.mem_iff.1 hr)
    have hsums : ∀ r ∈ [p, q],
        NoOverflow ((evidenceFor [p, q] r.first r.second).map (·.weight)) := by
      have h : ∀ r ∈ [zulu, zoned],
          NoOverflow ((evidenceFor [zulu, zoned] r.first r.second).map (·.weight)) := by
        decide +kernel
      exact fun r hr => (noOverflow_perm hpq _ _).2 (h r (hpq.mem_iff.1 hr))
    have hkeys : keys [p, q] = [("x.ts", "y.ts")] := by
      have h : keys [zulu, zoned] = [("x.ts", "y.ts")] := by decide +kernel
      exact List.perm_singleton.1 (h ▸ keys_perm hpq)
    refine (mergePairs_eq_upTo hfinite hsums _).trans ?_
    rw [ranking_of_keys_eq hkeys]
    rfl
  refine ⟨List.Perm.swap zoned zulu [], by decide +kernel, fun heq => ?_⟩
  rw [hmerge zulu zoned (List.Perm.refl _), hmerge zoned zulu (List.Perm.swap _ _ _)] at heq
  have hdates := congrArg (fun ms => ms.map (·.lastChanged)) (Except.ok.inj heq)
  have hne : latestDate (datesFor [zulu, zoned] ("x.ts", "y.ts")) ≠
      latestDate (datesFor [zoned, zulu] ("x.ts", "y.ts")) := by decide +kernel
  exact hne (List.cons.inj hdates).1

end Coupling
end CodeSurvey
