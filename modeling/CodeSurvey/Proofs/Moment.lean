/-
# The latest date

The latest of some dates is one of them that is not empty, and no other one that is not empty names
a later instant (`latestDate_isLatest`). There is none only if all dates are empty. The instant of
the latest date is known by the dates (`IsLatest.instant_eq`), and so is its spelling if no two
dates spell one instant in different ways (`IsLatest.eq_of_spelledOnce`).
-/

import CodeSurvey.Moment.Reader
import Mathlib.Data.List.Induction

namespace CodeSurvey

/-- Whether a date is a latest one among some, of which the empty ones do not count; none
is only if none counts. -/
def IsLatest (dates : List String) : Option String → Prop
  | none => ∀ d ∈ dates, d = ""
  | some d => d ∈ dates ∧ d ≠ "" ∧ ∀ e ∈ dates, e ≠ "" → commitInstant e ≤ commitInstant d

/-- An empty date more changes nothing. -/
theorem IsLatest.concat_empty {dates : List String} {best : Option String}
    (h : IsLatest dates best) : IsLatest (dates ++ [""]) best := by
  cases best with
  | none =>
    intro e he
    rcases List.mem_append.1 he with he | he
    · exact h e he
    · exact List.mem_singleton.1 he
  | some b =>
    obtain ⟨hmem, hne, hlatest⟩ := h
    refine ⟨List.mem_append_left _ hmem, hne, fun e he hene => ?_⟩
    rcases List.mem_append.1 he with he | he
    · exact hlatest e he hene
    · exact absurd (List.mem_singleton.1 he) hene

/-- A date more is the latest if it is later than the latest before it. -/
theorem IsLatest.concat {dates : List String} {best : Option String} (h : IsLatest dates best)
    {d : String} (hd : d ≠ "") : IsLatest (dates ++ [d]) (laterDate best d) := by
  have hlast : d ∈ dates ++ [d] := List.mem_append_right _ (List.mem_singleton_self d)
  cases best with
  | none =>
    refine ⟨hlast, hd, fun e he hene => ?_⟩
    rcases List.mem_append.1 he with he | he
    · exact absurd (h e he) hene
    · exact Int.le_of_eq (congrArg commitInstant (List.mem_singleton.1 he))
  | some b =>
    obtain ⟨hmem, hne, hlatest⟩ := h
    rw [laterDate]
    split_ifs with hlater
    · refine ⟨hlast, hd, fun e he hene => ?_⟩
      rcases List.mem_append.1 he with he | he
      · exact Int.le_trans (hlatest e he hene) (Int.le_of_lt hlater)
      · exact Int.le_of_eq (congrArg commitInstant (List.mem_singleton.1 he))
    · refine ⟨List.mem_append_left _ hmem, hne, fun e he hene => ?_⟩
      rcases List.mem_append.1 he with he | he
      · exact hlatest e he hene
      · rw [List.mem_singleton.1 he]
        exact Int.not_lt.1 hlater

/-- A date more, if it is not empty, is compared with the latest before it. -/
theorem latestDate_concat (dates : List String) (d : String) :
    latestDate (dates ++ [d]) = if d.isEmpty then latestDate dates
      else laterDate (latestDate dates) d := by
  rw [latestDate, List.filter_append, List.foldl_append, latestDate]
  by_cases h : d.isEmpty <;> simp [h]

/-- **The latest date.** It is one of the dates, is not empty, and no date that is not empty
names a later instant. -/
theorem latestDate_isLatest (dates : List String) : IsLatest dates (latestDate dates) := by
  induction dates using List.reverseRecOn with
  | nil => exact fun d hd => absurd hd List.not_mem_nil
  | append_singleton dates d ih =>
    rw [latestDate_concat]
    split_ifs with hd
    · rw [String.isEmpty_iff.1 hd]
      exact ih.concat_empty
    · exact ih.concat fun he => hd (String.isEmpty_iff.2 he)

/-- The latest of one date, if there is one, is this date. -/
theorem latestDate_toList {date : Option String} (h : date ≠ some "") :
    latestDate date.toList = date := by
  cases date with
  | none => rfl
  | some d =>
    have hd : d.isEmpty = false := by
      rw [Bool.eq_false_iff, ne_eq, String.isEmpty_iff]
      exact fun he => h (congrArg some he)
    have hone := latestDate_concat [] d
    rw [List.nil_append, hd] at hone
    exact hone

/-- A latest date among the same dates as another one names the same instant. -/
theorem IsLatest.instant_eq {dates dates' : List String} (h : ∀ d, d ∈ dates ↔ d ∈ dates')
    {best best' : Option String} (hbest : IsLatest dates best) (hbest' : IsLatest dates' best') :
    best.map commitInstant = best'.map commitInstant := by
  cases best with
  | none =>
    cases best' with
    | none => rfl
    | some b' => exact absurd (hbest b' ((h b').2 hbest'.1)) hbest'.2.1
  | some b =>
    cases best' with
    | none => exact absurd (hbest' b ((h b).1 hbest.1)) hbest.2.1
    | some b' =>
      obtain ⟨hmem, hne, hlatest⟩ := hbest
      obtain ⟨hmem', hne', hlatest'⟩ := hbest'
      have hle := hlatest b' ((h b').2 hmem') hne'
      have hge := hlatest' b ((h b).1 hmem) hne
      exact congrArg some (Int.le_antisymm hge hle)

/-- Whether dates that are not empty spell each instant in one way. -/
def SpelledOnce (dates : List String) : Prop :=
  ∀ d ∈ dates, ∀ e ∈ dates, d ≠ "" → e ≠ "" → commitInstant d = commitInstant e → d = e

/-- A latest date is known by the dates if each instant is spelled in one way. -/
theorem IsLatest.eq_of_spelledOnce {dates dates' : List String} (h : ∀ d, d ∈ dates ↔ d ∈ dates')
    (hspelling : SpelledOnce dates) {best best' : Option String} (hbest : IsLatest dates best)
    (hbest' : IsLatest dates' best') : best = best' := by
  have hinstant := hbest.instant_eq h hbest'
  cases best with
  | none =>
    cases best' with
    | none => rfl
    | some b' => cases hinstant
  | some b =>
    cases best' with
    | none => cases hinstant
    | some b' =>
      exact congrArg some
        (hspelling b hbest.1 b' ((h b').2 hbest'.1) hbest.2.1 hbest'.2.1 (Option.some.inj hinstant))

end CodeSurvey
