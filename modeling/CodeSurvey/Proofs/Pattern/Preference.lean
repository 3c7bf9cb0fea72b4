/-
# The way that a pattern prefers

A pattern may lead from one place to many. Which of the ways its match takes is a matter of
preference: a pattern takes a text if the way over this text is the first one it tries
(`Pattern.Takes`), given what stands before the text and ahead of it. A pattern that takes a text
matches it (`Pattern.matchAt?_of_takes`). Patterns one after another take their texts one after
another (`Pattern.Takes.seq`), and a repeated character class takes the longest run of its
characters (`Pattern.takes_many`).
-/

import CodeSurvey.Proofs.Pattern.Search

namespace CodeSurvey
namespace Pattern

/-- Whether the first way that a pattern tries leads over a text, capturing some parts of it. -/
def Takes (p : Pattern) (before : Option Char) (w ahead : List Char)
    (captured : List (Nat × List Char)) : Prop :=
  ∀ s t : Cursor, s.before = before → s.Passes w t → t.rest = ahead →
    ∀ {α : Type} (go : Cursor → Option α) (x : α),
    go { t with captured := captured ++ s.captured } = some x → p.run s go = some x

section Takes

variable {a b p : Pattern} {ps : List Pattern} {before : Option Char} {v w ahead : List Char}
  {captured captured' : List (Nat × List Char)} {test : Char → Bool} {c : Char} {n : Nat}
    {s t : Cursor}

/-- What a pattern takes from a place on is its match. -/
theorem matchAt?_of_takes (h : p.Takes s.before w t.rest captured) (hpass : s.Passes w t) :
    p.matchAt? s = some { t with captured } := by
  have hpass' : ({ s with captured := [] } : Cursor).Passes w { t with captured := [] } :=
    ⟨hpass.rest_eq, hpass.before_eq, hpass.offset_eq, rfl⟩
  refine h { s with captured := [] } { t with captured := [] } rfl hpass' rfl some _ ?_
  rw [List.append_nil]

theorem takes_char (h : test c = true) : (char test).Takes before [c] ahead [] := by
  intro s t _ hpass _ α go x hgo
  rw [run, Cursor.next?_eq_some_iff.2 hpass]
  dsimp only
  rw [if_pos h, ← hgo, ← hpass.captured_eq]
  rfl

theorem takes_one (c : Char) : (one c).Takes before [c] ahead [] := takes_char BEq.rfl

theorem takes_nothing : nothing.Takes before [] ahead [] := by
  intro s t _ hpass _ α go x hgo
  obtain rfl := Cursor.passes_nil_iff.1 hpass
  exact hgo

theorem takes_place {look : Option Char → List Char → Bool} (h : look before ahead = true) :
    (place look).Takes before [] ahead [] := by
  intro s t hbefore hpass hahead α go x hgo
  obtain rfl := Cursor.passes_nil_iff.1 hpass
  rw [run, if_pos (by rw [hbefore, hahead, h])]
  exact hgo

/-- Patterns one after another take their texts one after another. -/
theorem Takes.seq (ha : a.Takes before v (w ++ ahead) captured)
    (hb : b.Takes (v.getLast?.or before) w ahead captured') :
    (a.seq b).Takes before (v ++ w) ahead (captured' ++ captured) := by
  intro s t hbefore hpass hahead α go x hgo
  obtain ⟨u, hsu, hut⟩ := Cursor.passes_append_iff.1 hpass
  refine ha s u hbefore hsu (by rw [hut.rest_eq, hahead]) _ x ?_
  refine hb _ { t with captured := captured ++ s.captured } ?_ ?_ hahead go x ?_
  · exact hsu.before_eq.trans (by rw [hbefore])
  · exact ⟨hut.rest_eq, hut.before_eq, hut.offset_eq, rfl⟩
  · rw [← List.append_assoc]
    exact hgo

theorem Takes.all_cons (ha : p.Takes before v (w ++ ahead) captured)
    (hb : (all ps).Takes (v.getLast?.or before) w ahead captured') :
    (all (p :: ps)).Takes before (v ++ w) ahead (captured' ++ captured) := by
  cases ps with
  | nil =>
    intro s t hbefore hpass hahead α go x hgo
    exact ha.seq hb s t hbefore hpass hahead go x hgo
  | cons q qs => exact ha.seq hb

theorem takes_all_nil : (all []).Takes before [] ahead [] := takes_nothing

/-- The text that a pattern takes is captured. -/
theorem Takes.capture (ha : a.Takes before w ahead []) :
    (capture n a).Takes before w ahead [(n, w)] := by
  intro s t hbefore hpass hahead α go x hgo
  refine ha s t hbefore hpass hahead _ x ?_
  show go { t with captured := (n, s.rest.take (t.offset - s.offset)) ::
      ([] ++ s.captured) } = some x
  rw [hpass.take_eq]
  exact hgo

/-- A pattern that leads nowhere from a place is left out there. -/
theorem takes_optional_nothing
    (h : ∀ s t : Cursor, s.before = before → s.rest = ahead → ¬a.Reaches s t) :
    (optional a).Takes before [] ahead [] := by
  intro s t hbefore hpass hahead α go x hgo
  obtain rfl := Cursor.passes_nil_iff.1 hpass
  have hnone : a.run t go = none := by
    rw [Option.eq_none_iff_forall_not_mem]
    intro y hy
    obtain ⟨u, hu, -⟩ := run_eq_some hy
    exact h t u hbefore hahead hu
  rw [optional, run, hnone]
  exact hgo

/-- **A repeated class takes the longest run of its characters.** -/
theorem takes_many (hw : ∀ c ∈ w, test c = true) (hahead : ∀ c ∈ ahead.head?, test c = false) :
    (many (char test)).Takes before w ahead [] := by
  intro s t hbefore hpass hrest α go x hgo
  clear hbefore
  rw [run]
  induction w generalizing s with
  | nil =>
    obtain rfl := Cursor.passes_nil_iff.1 hpass
    have hnone : ∀ k : Cursor → Option α, (char test).run t k = none := by
      intro k
      rw [Option.eq_none_iff_forall_not_mem]
      intro y hy
      obtain ⟨u, ⟨c, hnext, hc⟩, -⟩ := run_eq_some hy
      have hhead : c ∈ ahead.head? := by
        rw [← hrest, (Cursor.next?_eq_some_iff.1 hnext).rest_eq]
        rfl
      rw [hahead c hhead] at hc
      cases hc
    rw [repeatMany, hnone]
    exact hgo
  | cons c w ih =>
    obtain ⟨u, hsu, hut⟩ := Cursor.passes_append_iff.1 (show s.Passes ([c] ++ w) t from hpass)
    have hlt := Cursor.left_lt_of_next? (Cursor.next?_eq_some_iff.2 hsu)
    have hrest := ih (fun d hd => hw d (List.mem_cons_of_mem c hd)) u hut
      (by rw [hsu.captured_eq]; exact hgo)
    have hfirst : (char test).run s (fun t => if t.left < s.left then
        repeatMany (fun t k => (char test).run t k) t go else none) = some x := by
      rw [run, Cursor.next?_eq_some_iff.2 hsu]
      dsimp only
      rw [if_pos (hw c (List.mem_cons_self ..)), if_pos hlt, hrest]
    rw [repeatMany, hfirst]

/-- A class repeated at least once takes the longest run of its characters. -/
theorem takes_some1 (hne : w ≠ []) (hw : ∀ c ∈ w, test c = true)
    (hahead : ∀ c ∈ ahead.head?, test c = false) : (some1 (char test)).Takes before w ahead [] := by
  obtain ⟨c, w, rfl⟩ := List.exists_cons_of_ne_nil hne
  obtain ⟨hc, hw⟩ := List.forall_mem_cons.1 hw
  exact (takes_char hc).seq (takes_many hw hahead)

theorem takes_word (k : String) : (word k).Takes before k.toList ahead [] := by
  rw [word]
  induction k.toList generalizing before with
  | nil => exact takes_nothing
  | cons c cs ih => exact Takes.all_cons (takes_one c) ih

end Takes
end Pattern
end CodeSurvey
