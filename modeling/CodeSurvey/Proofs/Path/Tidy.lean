/-
# Tidy paths

Tidying takes the blanks around a path, then the marks `./` at its start and then the slashes there,
and each of these once. What is left follows marks and slashes, does not start with a slash, and
starts with a mark only if a slash stood before it; nothing else is like this (`Path.tidy_eq_iff`).

A path from which tidying has nothing to take is canonical (`Path.tidy_eq_self_iff`). What is left
is canonical unless a mark stood behind a slash, or a blank behind a mark or a slash
(`Path.isCanonical_tidy_iff`, `Path.not_isCanonical_tidy_iff`). All spellings of a canonical path
come to it (`Path.tidy_eq_iff_of_isCanonical`).
-/

import CodeSurvey.Proofs.Text

namespace CodeSurvey
namespace Path

open Text

variable {cs w : List Char}

/-- Marks `./` and then slashes. -/
def lead (marks slashes : Nat) : List Char :=
  (List.replicate marks ['.', '/']).flatten ++ List.replicate slashes '/'

/-- Whether tidying has nothing to take from a path: it holds no backslash, has no blank at an end,
and starts neither with a slash nor with a mark `./`. -/
structure IsCanonical (cs : List Char) : Prop where
  backslash : '\\' ∉ cs
  head : ∀ c ∈ cs.head?, isBlank c = false
  last : ∀ c ∈ cs.getLast?, isBlank c = false
  slash : cs.head? ≠ some '/'
  mark : ¬['.', '/'] <+: cs

/-- Whether a text spells a path: with slashes and without the blanks around it, it is marks `./`,
then slashes, then the path. -/
def Spells (cs w : List Char) : Prop := ∃ marks slashes, trim (forward cs) = lead marks slashes ++ w

theorem backslash_not_mem_forward (cs : List Char) : '\\' ∉ forward cs := by
  intro h
  obtain ⟨c, -, hc⟩ := List.mem_map.1 h
  split at hc
  · cases hc
  · next hne => exact hne (beq_iff_eq.2 hc)

theorem forward_eq_self (h : '\\' ∉ cs) : forward cs = cs := by
  have hsame : ∀ c ∈ cs, (if c == '\\' then '/' else c) = c := by
    intro c hc
    rw [if_neg]
    exact fun he => h (beq_iff_eq.1 he ▸ hc)
  rw [forward, List.map_congr_left hsame, List.map_id']

/-- Dropping the marks leaves what follows them and does not start with one. -/
theorem dropHere_eq_iff :
    dropHere cs = w ↔ (∃ n, cs = (List.replicate n ['.', '/']).flatten ++ w) ∧
      ¬['.', '/'] <+: w := by
  constructor
  · rintro rfl
    fun_induction dropHere cs with
    | case1 r ih =>
      obtain ⟨⟨n, hn⟩, hmark⟩ := ih
      refine ⟨⟨n + 1, ?_⟩, hmark⟩
      rw [List.replicate_succ, List.flatten_cons, List.append_assoc, ← hn]
      rfl
    | case2 cs h =>
      refine ⟨⟨0, rfl⟩, ?_⟩
      rintro ⟨r, rfl⟩
      exact h r rfl
  · rintro ⟨⟨n, rfl⟩, hmark⟩
    induction n with
    | zero =>
      refine dropHere.eq_2 w ?_
      rintro r rfl
      exact hmark ⟨r, rfl⟩
    | succ n ih => exact ih

/-- Dropping the slashes leaves what follows them and does not start with one. -/
theorem dropWhile_slash_eq_iff :
    cs.dropWhile (· == '/') = w ↔ (∃ m, cs = List.replicate m '/' ++ w) ∧ w.head? ≠ some '/' := by
  constructor
  · rintro rfl
    refine ⟨⟨(cs.takeWhile (· == '/')).length, ?_⟩, fun h => ?_⟩
    · have hslashes : ∀ c ∈ cs.takeWhile (· == '/'), c = '/' :=
        fun c hc => beq_iff_eq.1 (List.mem_takeWhile_imp (p := (· == '/')) hc)
      rw [← List.eq_replicate_of_mem hslashes, List.takeWhile_append_dropWhile]
    · have hhead := List.head?_dropWhile_not (· == '/') cs
      rw [h] at hhead
      cases hhead
  · rintro ⟨⟨m, rfl⟩, hw⟩
    rw [List.dropWhile_append_of_pos fun c hc => beq_iff_eq.2 (List.eq_of_mem_replicate hc)]
    cases w with
    | nil => rfl
    | cons c w => exact List.dropWhile_cons_of_neg fun hc => hw (congrArg some (beq_iff_eq.1 hc))

/-- Slashes and a path start with a mark only if there are no slashes and the path does. -/
theorem mark_prefix_iff {m : Nat} :
    ['.', '/'] <+: List.replicate m '/' ++ w ↔ m = 0 ∧ ['.', '/'] <+: w := by
  cases m with
  | zero => exact (and_iff_right rfl).symm
  | succ m =>
    refine ⟨fun h => ?_, fun h => absurd h.1 (Nat.succ_ne_zero m)⟩
    obtain ⟨t, ht⟩ := h
    exact absurd (List.cons.inj ht).1 (by decide)

/-- **What tidying leaves** of a path. -/
theorem tidy_eq_iff :
    tidy cs = w ↔
      (∃ n m, trim (forward cs) = lead n m ++ w ∧ (['.', '/'] <+: w → 0 < m)) ∧
        w.head? ≠ some '/' := by
  rw [tidy, dropWhile_slash_eq_iff, and_congr_left_iff]
  simp only [dropHere_eq_iff, mark_prefix_iff, lead, not_and', Nat.pos_iff_ne_zero,
    List.append_assoc]
  intro _
  constructor
  · rintro ⟨m, ⟨n, hn⟩, hmark⟩
    exact ⟨n, m, hn, hmark⟩
  · rintro ⟨n, m, hn, hmark⟩
    exact ⟨m, ⟨n, hn⟩, hmark⟩

/-- What tidying leaves is an end of the path. -/
theorem tidy_suffix (cs : List Char) : tidy cs <:+ trim (forward cs) := by
  obtain ⟨⟨n, m, h, -⟩, -⟩ := tidy_eq_iff.1 (Eq.refl (tidy cs))
  exact ⟨lead n m, h.symm⟩

theorem backslash_not_mem_tidy (cs : List Char) : '\\' ∉ tidy cs := fun h =>
  backslash_not_mem_forward cs (mem_of_mem_trim ((tidy_suffix cs).subset h))

/-- What tidying leaves has no blank at its end. -/
theorem isBlank_of_getLast?_tidy {c : Char} (h : c ∈ (tidy cs).getLast?) : isBlank c = false := by
  obtain ⟨rest, hrest⟩ := tidy_suffix cs
  have hlast : (trim (forward cs)).getLast? = some c := by
    rw [← hrest, List.getLast?_append, h]
    rfl
  exact isBlank_of_getLast?_trim hlast

/-- What tidying leaves does not start with a slash. -/
theorem head?_tidy_ne_slash (cs : List Char) : (tidy cs).head? ≠ some '/' := (tidy_eq_iff.1 rfl).2

/-- **The canonical paths** are those that tidying leaves as they are. -/
theorem tidy_eq_self_iff : tidy cs = cs ↔ IsCanonical cs := by
  constructor
  · intro h
    obtain ⟨⟨n, m, hlead, hmark⟩, hslash⟩ := tidy_eq_iff.1 h
    -- Tidying keeps the length, so there is nothing to trim, and there are
    -- neither marks nor slashes.
    have hlength : (trim (forward cs)).length ≤ cs.length :=
      (trim_sublist (forward cs)).length_le.trans_eq (List.length_map ..)
    have hnone : lead n m = [] := by
      rw [hlead, List.length_append] at hlength
      exact List.length_eq_zero_iff.1 (by omega)
    have hm : m = 0 := (List.replicate_eq_nil_iff '/').1 (List.append_eq_nil_iff.1 hnone).2
    rw [hnone, List.nil_append] at hlead
    refine ⟨fun hmem => ?_, fun c hc => ?_, fun c hc => ?_, hslash, fun hfront => ?_⟩
    · rw [← h] at hmem
      exact backslash_not_mem_tidy cs hmem
    · rw [← hlead] at hc
      exact isBlank_of_head?_trim hc
    · rw [← h] at hc
      exact isBlank_of_getLast?_tidy hc
    · exact absurd hm (Nat.pos_iff_ne_zero.1 (hmark hfront))
  · intro h
    refine tidy_eq_iff.2 ⟨⟨0, 0, ?_, fun hfront => absurd hfront h.mark⟩, h.slash⟩
    rw [forward_eq_self h.backslash, trim_eq_self h.head h.last]
    rfl

/-- What tidying leaves is canonical if it starts neither with a blank nor with a mark. -/
theorem isCanonical_tidy_iff :
    IsCanonical (tidy cs) ↔ (∀ c ∈ (tidy cs).head?, isBlank c = false) ∧
      ¬['.', '/'] <+: tidy cs := by
  refine ⟨fun h => ⟨h.head, h.mark⟩, fun ⟨hhead, hmark⟩ => ?_⟩
  exact ⟨backslash_not_mem_tidy cs, hhead, fun _ => isBlank_of_getLast?_tidy,
    head?_tidy_ne_slash cs, hmark⟩

/-- **What tidying leaves is not canonical** exactly if a mark stood behind a slash, or a blank
behind marks and slashes. -/
theorem not_isCanonical_tidy_iff :
    ¬IsCanonical (tidy cs) ↔ ∃ n m w, trim (forward cs) = lead n m ++ w ∧
      (0 < m ∧ ['.', '/'] <+: w ∨ ∃ c ∈ w.head?, isBlank c = true) := by
  rw [isCanonical_tidy_iff, not_and_or]
  constructor
  · obtain ⟨⟨n, m, hlead, hmark⟩, -⟩ := tidy_eq_iff.1 (Eq.refl (tidy cs))
    refine fun h => ⟨n, m, tidy cs, hlead, ?_⟩
    rcases h with hhead | hfront
    · simpa using Or.inr hhead
    · exact .inl ⟨hmark (not_not.1 hfront), not_not.1 hfront⟩
  · rintro ⟨n, m, w, hlead, h⟩
    have hmark (hfront : ['.', '/'] <+: w) : w.head? = some '.' := by
      obtain ⟨t, rfl⟩ := hfront
      rfl
    rcases h with ⟨hm, hfront⟩ | ⟨c, hc, hblank⟩
    · have hslash : w.head? ≠ some '/' := by
        rw [hmark hfront]
        decide
      rw [tidy_eq_iff.2 ⟨⟨n, m, hlead, fun _ => hm⟩, hslash⟩]
      exact .inr (not_not.2 hfront)
    · have hne {d : Char} (hd : isBlank d = false) : w.head? ≠ some d := by
        intro h
        obtain rfl := Option.some.inj (hc.symm.trans h)
        rw [hd] at hblank
        cases hblank
      have hw : tidy cs = w :=
        tidy_eq_iff.2 ⟨⟨n, m, hlead, fun hfront => absurd (hmark hfront) (hne (by decide))⟩,
          hne (by decide)⟩
      rw [hw]
      refine .inl fun hall => ?_
      rw [hall c hc] at hblank
      cases hblank

/-- **All spellings** of a canonical path come to it, and nothing else does. -/
theorem tidy_eq_iff_of_isCanonical (hw : IsCanonical w) : tidy cs = w ↔ Spells cs w := by
  rw [tidy_eq_iff, and_iff_left hw.slash]
  constructor
  · rintro ⟨n, m, hlead, -⟩
    exact ⟨n, m, hlead⟩
  · rintro ⟨n, m, hlead⟩
    exact ⟨n, m, hlead, fun hfront => absurd hfront hw.mark⟩

end Path
end CodeSurvey
