/-
# What patterns match

`Pattern.Reaches` says to which places a pattern can lead from a place, whichever way is preferred.
Trying the ways in order of preference succeeds exactly if some way leads to a place from which one
can go on (`Pattern.isSome_run_iff`), and what it answers comes from such a place
(`Pattern.run_eq_some`).

A pattern that looks neither back nor ahead and captures nothing spells a language: it leads over
the texts of the language and no others (`Pattern.Spells`). Patterns one after another spell the
product of their languages, and so on for the other forms, so the language of a pattern is read off
its form; a pattern that ends at the end of a text matches the texts of its language, with a line
feed after them or without (`Pattern.isSome_matchStart?_iff`).
-/

import CodeSurvey.Pattern
import Mathlib.Computability.Language
import Mathlib.Data.List.Forall2
import Mathlib.Logic.Relation

namespace CodeSurvey
namespace Cursor

/-- Whether a text leads from a place to another one. -/
structure Passes (s : Cursor) (w : List Char) (t : Cursor) : Prop where
  rest_eq : s.rest = w ++ t.rest
  before_eq : t.before = w.getLast?.or s.before
  offset_eq : t.offset = s.offset + w.length
  captured_eq : t.captured = s.captured

variable {s t u : Cursor} {v w : List Char} {c : Char}

theorem ext_of_rest (hbefore : s.before = t.before) (hrest : s.rest = t.rest)
    (hoffset : s.offset = t.offset) (hcaptured : s.captured = t.captured) : s = t := by
  obtain ⟨before, rest, left, offset, captured, hleft⟩ := s
  obtain ⟨before', rest', left', offset', captured', hleft'⟩ := t
  dsimp only at hbefore hrest hoffset hcaptured
  subst hbefore hrest hoffset hcaptured hleft hleft'
  rfl

/-- A text leads to one place. -/
theorem Passes.unique (h : s.Passes w t) (h' : s.Passes w u) : t = u :=
  ext_of_rest (h.before_eq.trans h'.before_eq.symm)
    (List.append_cancel_left (h.rest_eq.symm.trans h'.rest_eq))
    (h.offset_eq.trans h'.offset_eq.symm) (h.captured_eq.trans h'.captured_eq.symm)

theorem passes_nil_iff : s.Passes [] t ↔ t = s := by
  constructor
  · intro h
    exact h.unique ⟨rfl, rfl, rfl, rfl⟩
  · rintro rfl
    exact ⟨rfl, rfl, rfl, rfl⟩

theorem Passes.append (h : s.Passes v t) (h' : t.Passes w u) : s.Passes (v ++ w) u where
  rest_eq := by rw [h.rest_eq, h'.rest_eq, List.append_assoc]
  before_eq := by rw [h'.before_eq, h.before_eq, List.getLast?_append, Option.or_assoc]
  offset_eq := by rw [h'.offset_eq, h.offset_eq, List.length_append, Nat.add_assoc]
  captured_eq := h'.captured_eq.trans h.captured_eq

/-- The head of what is left leads somewhere. -/
theorem exists_passes (h : s.rest = v ++ w) : ∃ t, s.Passes v t ∧ t.rest = w :=
  ⟨⟨v.getLast?.or s.before, w, w.length, s.offset + v.length, s.captured, rfl⟩,
    ⟨h, rfl, rfl, rfl⟩, rfl⟩

theorem passes_append_iff : s.Passes (v ++ w) u ↔ ∃ t, s.Passes v t ∧ t.Passes w u := by
  constructor
  · intro h
    obtain ⟨t, ht, hrest⟩ := exists_passes (h.rest_eq.trans (List.append_assoc ..))
    obtain ⟨u', hu', -⟩ := exists_passes hrest
    exact ⟨t, ht, h.unique (ht.append hu') ▸ hu'⟩
  · rintro ⟨t, h, h'⟩
    exact h.append h'

theorem Passes.left_eq (h : s.Passes w t) : s.left = w.length + t.left := by
  rw [s.left_eq, t.left_eq, h.rest_eq, List.length_append]

/-- The text between two places is what is captured there. -/
theorem Passes.take_eq (h : s.Passes w t) : s.rest.take (t.offset - s.offset) = w := by
  rw [h.offset_eq, h.rest_eq, Nat.add_sub_cancel_left, List.take_left]

/-- The next place is the one after one character. -/
theorem next?_eq_some_iff : s.next? = some (c, t) ↔ s.Passes [c] t := by
  constructor
  · intro h
    unfold next? at h
    split at h
    · cases h
    · rename_i d r hr
      cases h
      exact ⟨hr, rfl, rfl, rfl⟩
  · intro h
    unfold next?
    split
    · rename_i hr
      rw [h.rest_eq] at hr
      cases hr
    · rename_i d r hr
      obtain ⟨rfl, rfl⟩ := List.cons.inj (h.rest_eq.symm.trans hr)
      exact congrArg (fun u => some (c, u)) (Passes.unique ⟨h.rest_eq, rfl, rfl, rfl⟩ h)

end Cursor

namespace Pattern

open Relation

variable {α : Type}

/-- Whether a pattern can lead from a place to another one. -/
def Reaches : Pattern → Cursor → Cursor → Prop
  | char test, s, t => ∃ c, s.next? = some (c, t) ∧ test c = true
  | nothing, s, t => t = s
  | seq a b, s, u => ∃ t, Reaches a s t ∧ Reaches b t u
  | orElse a b, s, t => Reaches a s t ∨ Reaches b s t
  | many a, s, t => ReflTransGen (fun u v => Reaches a u v ∧ v.left < u.left) s t
  | fewest a, s, t => ReflTransGen (fun u v => Reaches a u v ∧ v.left < u.left) s t
  | capture n a, s, t =>
    ∃ u, Reaches a s u ∧
      t = { u with captured := (n, s.rest.take (u.offset - s.offset)) :: u.captured }
  | place test, s, t => t = s ∧ test s.before s.rest = true

section Repetition

variable {step : Cursor → (Cursor → Option α) → Option α} {R : Cursor → Cursor → Prop}

/-- What a repetition answers comes from a place to which repeated steps lead. -/
theorem repeatMany_eq_some (hstep : ∀ s go x, step s go = some x → ∃ t, R s t ∧ go t = some x)
    {s : Cursor} {go : Cursor → Option α} {x : α} (h : repeatMany step s go = some x) :
    ∃ t, ReflTransGen (fun u v => R u v ∧ v.left < u.left) s t ∧ go t = some x := by
  induction hn : s.left using Nat.strong_induction_on generalizing s with
  | _ n ih =>
    unfold repeatMany at h
    split at h
    · rename_i y hy
      obtain ⟨u, hu, hgo⟩ := hstep _ _ _ (hy.trans h)
      split at hgo
      · rename_i hlt
        obtain ⟨t, ht, hx⟩ := ih u.left (hn ▸ hlt) hgo rfl
        exact ⟨t, .head ⟨hu, hlt⟩ ht, hx⟩
      · cases hgo
    · exact ⟨s, .refl, h⟩

theorem repeatFewest_eq_some (hstep : ∀ s go x, step s go = some x → ∃ t, R s t ∧ go t = some x)
    {s : Cursor} {go : Cursor → Option α} {x : α} (h : repeatFewest step s go = some x) :
    ∃ t, ReflTransGen (fun u v => R u v ∧ v.left < u.left) s t ∧ go t = some x := by
  induction hn : s.left using Nat.strong_induction_on generalizing s with
  | _ n ih =>
    unfold repeatFewest at h
    split at h
    · rename_i y hy
      exact ⟨s, .refl, hy.trans h⟩
    · obtain ⟨u, hu, hgo⟩ := hstep _ _ _ h
      split at hgo
      · rename_i hlt
        obtain ⟨t, ht, hx⟩ := ih u.left (hn ▸ hlt) hgo rfl
        exact ⟨t, .head ⟨hu, hlt⟩ ht, hx⟩
      · cases hgo

/-- A repetition succeeds if repeated steps lead to a place from which one can go on. -/
theorem isSome_repeatMany (hstep : ∀ s go t, R s t → (go t).isSome → (step s go).isSome)
    {s t : Cursor} {go : Cursor → Option α}
    (h : ReflTransGen (fun u v => R u v ∧ v.left < u.left) s t) (hgo : (go t).isSome) :
    (repeatMany step s go).isSome := by
  induction h using ReflTransGen.head_induction_on with
  | refl =>
    unfold repeatMany
    split
    · rfl
    · exact hgo
  | head hsu _ ih =>
    have hfirst := hstep _ (fun t => if t.left < _ then repeatMany step t go else none) _ hsu.1
      (by rwa [if_pos hsu.2])
    unfold repeatMany
    split
    · rfl
    · rename_i hnone
      rw [hnone] at hfirst
      cases hfirst

theorem isSome_repeatFewest (hstep : ∀ s go t, R s t → (go t).isSome → (step s go).isSome)
    {s t : Cursor} {go : Cursor → Option α}
    (h : ReflTransGen (fun u v => R u v ∧ v.left < u.left) s t) (hgo : (go t).isSome) :
    (repeatFewest step s go).isSome := by
  induction h using ReflTransGen.head_induction_on with
  | refl =>
    unfold repeatFewest
    split
    · rfl
    · rename_i hnone
      rw [hnone] at hgo
      cases hgo
  | head hsu _ ih =>
    unfold repeatFewest
    split
    · rfl
    · exact hstep _ _ _ hsu.1 (by rwa [if_pos hsu.2])

end Repetition

/-- **What a pattern answers comes from a place to which it leads.** -/
theorem run_eq_some {p : Pattern} {s : Cursor} {go : Cursor → Option α} {x : α}
    (h : p.run s go = some x) : ∃ t, p.Reaches s t ∧ go t = some x := by
  induction p generalizing s go x with
  | char test =>
    rw [run] at h
    split at h
    · rename_i c t hnext
      split at h
      · rename_i hc
        exact ⟨t, ⟨c, hnext, hc⟩, h⟩
      · cases h
    · cases h
  | nothing => exact ⟨s, rfl, h⟩
  | seq a b iha ihb =>
    obtain ⟨t, ht, hb⟩ := iha h
    obtain ⟨u, hu, hgo⟩ := ihb hb
    exact ⟨u, ⟨t, ht, hu⟩, hgo⟩
  | orElse a b iha ihb =>
    rw [run] at h
    split at h
    · rename_i y hy
      obtain ⟨t, ht, hgo⟩ := iha (hy.trans h)
      exact ⟨t, .inl ht, hgo⟩
    · obtain ⟨t, ht, hgo⟩ := ihb h
      exact ⟨t, .inr ht, hgo⟩
  | many a ih =>
    rw [run] at h
    exact repeatMany_eq_some (fun s go x => @ih s go x) h
  | fewest a ih =>
    rw [run] at h
    exact repeatFewest_eq_some (fun s go x => @ih s go x) h
  | capture n a ih =>
    obtain ⟨t, ht, hgo⟩ := ih h
    exact ⟨_, ⟨t, ht, rfl⟩, hgo⟩
  | place test =>
    rw [run] at h
    split at h
    · rename_i htest
      exact ⟨s, ⟨rfl, htest⟩, h⟩
    · cases h

/-- **Trying all ways succeeds if one way does.** -/
theorem isSome_run {p : Pattern} {s t : Cursor} {go : Cursor → Option α} (h : p.Reaches s t)
    (hgo : (go t).isSome) : (p.run s go).isSome := by
  induction p generalizing s t go with
  | char test =>
    obtain ⟨c, hnext, hc⟩ := h
    rw [run, hnext]
    dsimp only
    rwa [if_pos hc]
  | nothing =>
    obtain rfl := h
    exact hgo
  | seq a b iha ihb =>
    obtain ⟨u, hu, ht⟩ := h
    exact iha hu (ihb ht hgo)
  | orElse a b iha ihb =>
    rw [run]
    split
    · rfl
    · rename_i hnone
      rcases h with ha | hb
      · have := iha ha hgo
        rw [hnone] at this
        cases this
      · exact ihb hb hgo
  | many a ih => exact isSome_repeatMany (R := a.Reaches) (fun _ _ _ => ih) h hgo
  | fewest a ih => exact isSome_repeatFewest (R := a.Reaches) (fun _ _ _ => ih) h hgo
  | capture n a ih =>
    obtain ⟨u, hu, rfl⟩ := h
    exact ih hu hgo
  | place test =>
    obtain ⟨rfl, htest⟩ := h
    rw [run, if_pos htest]
    exact hgo

/-- Trying the ways of a pattern succeeds exactly if one can go on from a
place to which it leads. -/
theorem isSome_run_iff {p : Pattern} {s : Cursor} {go : Cursor → Option α} :
    (p.run s go).isSome ↔ ∃ t, p.Reaches s t ∧ (go t).isSome := by
  constructor
  · intro h
    obtain ⟨x, hx⟩ := Option.isSome_iff_exists.1 h
    obtain ⟨t, ht, hgo⟩ := run_eq_some hx
    exact ⟨t, ht, Option.isSome_iff_exists.2 ⟨x, hgo⟩⟩
  · rintro ⟨t, ht, hgo⟩
    exact isSome_run ht hgo

/-- Whether a pattern leads over the texts of a language and no others. -/
def Spells (p : Pattern) (L : Language Char) : Prop := ∀ s t, p.Reaches s t ↔ ∃ w ∈ L, s.Passes w t

/-- The texts of one character of a class. -/
def oneOf (test : Char → Bool) : Language Char := {w | ∃ c, test c = true ∧ w = [c]}

section Languages

variable {a b : Pattern} {L M : Language Char}

theorem spells_char (test : Char → Bool) : (char test).Spells (oneOf test) := by
  intro s t
  constructor
  · rintro ⟨c, hnext, hc⟩
    exact ⟨[c], ⟨c, hc, rfl⟩, Cursor.next?_eq_some_iff.1 hnext⟩
  · rintro ⟨_, ⟨c, hc, rfl⟩, hpass⟩
    exact ⟨c, Cursor.next?_eq_some_iff.2 hpass, hc⟩

theorem spells_nothing : nothing.Spells 1 := by
  intro s t
  simp only [Reaches, Language.mem_one, exists_eq_left, Cursor.passes_nil_iff]

/-- Patterns one after another spell the product of their languages. -/
theorem Spells.seq (ha : a.Spells L) (hb : b.Spells M) : (a.seq b).Spells (L * M) := by
  intro s u
  constructor
  · rintro ⟨t, hst, htu⟩
    obtain ⟨v, hv, hpass⟩ := (ha s t).1 hst
    obtain ⟨w, hw, hpass'⟩ := (hb t u).1 htu
    exact ⟨v ++ w, Language.append_mem_mul hv hw, hpass.append hpass'⟩
  · rintro ⟨_, hvw, hpass⟩
    obtain ⟨v, hv, w, hw, rfl⟩ := Language.mem_mul.1 hvw
    obtain ⟨t, hst, htu⟩ := Cursor.passes_append_iff.1 hpass
    exact ⟨t, (ha s t).2 ⟨v, hv, hst⟩, (hb t u).2 ⟨w, hw, htu⟩⟩

theorem Spells.orElse (ha : a.Spells L) (hb : b.Spells M) : (a.orElse b).Spells (L + M) := by
  intro s t
  simp only [Reaches, ha s t, hb s t, Language.mem_add, or_and_right, exists_or]

theorem Spells.optional (ha : a.Spells L) : (optional a).Spells (L + 1) := ha.orElse spells_nothing

/-- Repeated steps lead over the words of the language, one after another; an empty word
need not be repeated. -/
theorem Spells.reflTransGen (ha : a.Spells L) (s t : Cursor) :
    ReflTransGen (fun u v => a.Reaches u v ∧ v.left < u.left) s t ↔ ∃ w ∈ KStar.kstar L,
      s.Passes w t := by
  constructor
  · intro h
    induction h with
    | refl => exact ⟨[], Language.nil_mem_kstar L, Cursor.passes_nil_iff.2 rfl⟩
    | tail _ huv ih =>
      obtain ⟨v, hv, hpass⟩ := ih
      obtain ⟨w, hw, hpass'⟩ := (ha _ _).1 huv.1
      obtain ⟨vs, rfl, hvs⟩ := Language.mem_kstar.1 hv
      refine ⟨_, Language.mem_kstar.2 ⟨vs ++ [w],
        by rw [List.flatten_append, List.flatten_singleton], ?_⟩, hpass.append hpass'⟩
      rintro x hx
      rcases List.mem_append.1 hx with hx | hx
      · exact hvs x hx
      · exact List.mem_singleton.1 hx ▸ hw
  · rintro ⟨w, hw, hpass⟩
    rw [Language.kstar_def_nonempty] at hw
    obtain ⟨ws, rfl, hws⟩ := hw
    induction ws generalizing s with
    | nil => rw [Cursor.passes_nil_iff.1 hpass]
    | cons w ws ih =>
      obtain ⟨u, hsu, hut⟩ := Cursor.passes_append_iff.1 hpass
      obtain ⟨hw, hne⟩ := hws w (List.mem_cons_self ..)
      have hlt : u.left < s.left := by
        have := List.length_pos_iff.2 hne
        rw [hsu.left_eq]
        omega
      exact .head ⟨(ha s u).2 ⟨w, hw, hsu⟩,
        hlt⟩ (ih u (fun x hx => hws x (List.mem_cons_of_mem _ hx)) hut)

theorem Spells.many (ha : a.Spells L) : (many a).Spells (KStar.kstar L) := ha.reflTransGen

theorem Spells.fewest (ha : a.Spells L) : (fewest a).Spells (KStar.kstar L) := ha.reflTransGen

theorem Spells.some1 (ha : a.Spells L) : (some1 a).Spells (L * KStar.kstar L) := ha.seq ha.many

theorem Spells.fewest1 (ha : a.Spells L) : (fewest1 a).Spells (L * KStar.kstar L) :=
  ha.seq ha.fewest

/-- Several patterns one after another spell the product of their languages. -/
theorem Spells.all {ps : List Pattern} {Ls : List (Language Char)} (h : List.Forall₂ Spells ps Ls) :
    (all ps).Spells Ls.prod := by
  induction h with
  | nil => exact spells_nothing
  | @cons p L ps Ls hp hps ih =>
    cases hps with
    | nil => rwa [List.prod_singleton]
    | cons hq hqs => exact hp.seq ih

end Languages

/-- Words over a class. -/
theorem mem_kstar_oneOf {test : Char → Bool} {w : List Char} :
    w ∈ KStar.kstar (oneOf test) ↔ ∀ c ∈ w, test c = true := by
  constructor
  · intro h
    obtain ⟨ws, rfl, hws⟩ := Language.mem_kstar.1 h
    intro c hc
    obtain ⟨v, hv, hcv⟩ := List.mem_flatten.1 hc
    obtain ⟨d, hd, rfl⟩ := hws v hv
    exact List.mem_singleton.1 hcv ▸ hd
  · intro h
    refine Language.mem_kstar.2 ⟨w.map fun c => [c], ?_, ?_⟩
    · rw [← List.flatMap_def, List.flatMap_singleton']
    · intro v hv
      obtain ⟨c, hc, rfl⟩ := List.mem_map.1 hv
      exact ⟨c, h c hc, rfl⟩

/-- Words over a class that are not empty. -/
theorem mem_some_oneOf {test : Char → Bool} {w : List Char} :
    w ∈ oneOf test * KStar.kstar (oneOf test) ↔ w ≠ [] ∧ ∀ c ∈ w, test c = true := by
  constructor
  · intro h
    obtain ⟨_, ⟨c, hc, rfl⟩, v, hv, rfl⟩ := Language.mem_mul.1 h
    exact ⟨List.cons_ne_nil _ _, List.forall_mem_cons.2 ⟨hc, mem_kstar_oneOf.1 hv⟩⟩
  · rintro ⟨hne, hall⟩
    obtain ⟨c, v, rfl⟩ := List.exists_cons_of_ne_nil hne
    obtain ⟨hc, hv⟩ := List.forall_mem_cons.1 hall
    exact Language.mem_mul.2 ⟨[c], ⟨c, hc, rfl⟩, v, mem_kstar_oneOf.2 hv, rfl⟩

theorem spells_one (c : Char) : (one c).Spells {[c]} := by
  intro s t
  rw [one, spells_char]
  constructor
  · rintro ⟨_, ⟨d, hd, rfl⟩, hpass⟩
    exact ⟨[d], by rw [beq_iff_eq.1 hd]; rfl, hpass⟩
  · rintro ⟨_, rfl, hpass⟩
    exact ⟨[c], ⟨c, BEq.rfl, rfl⟩, hpass⟩

theorem prod_singletons (cs : List Char) :
    (cs.map fun c => ({[c]} : Language Char)).prod = {cs} := by
  induction cs with
  | nil => rfl
  | cons c cs ih =>
    rw [List.map_cons, List.prod_cons, ih]
    exact Set.image2_singleton

/-- A word spells itself. -/
theorem spells_word (w : String) : (word w).Spells {w.toList} := by
  have hall : List.Forall₂ Spells (w.toList.map one) (w.toList.map fun c => {[c]}) := by
    rw [List.forall₂_map_left_iff, List.forall₂_map_right_iff]
    exact List.forall₂_same.2 fun c _ => spells_one c
  rw [← prod_singletons]
  exact .all hall

theorem reaches_word_iff {w : String} {s t : Cursor} :
    (word w).Reaches s t ↔ s.Passes w.toList t := by
  rw [spells_word w s t]
  constructor
  · rintro ⟨_, rfl, hpass⟩
    exact hpass
  · exact fun hpass => ⟨_, rfl, hpass⟩

/-- To which places one of several patterns leads. -/
theorem reaches_any_iff {ps : List Pattern} {s t : Cursor} :
    (any ps).Reaches s t ↔ ∃ p ∈ ps, p.Reaches s t := by
  induction ps with
  | nil => simp [any, Reaches]
  | cons p ps ih =>
    cases ps with
    | nil => simp [any]
    | cons q qs =>
      rw [List.exists_mem_cons_iff, ← ih]
      rfl

/-- The place to which a capture leads is that of the pattern within, with the text between. -/
theorem reaches_capture_iff {p : Pattern} {L : Language Char} (hp : p.Spells L) {n : Nat}
    {s t : Cursor} :
    (capture n p).Reaches s t ↔ ∃ w ∈ L, ∃ u, s.Passes w u ∧
      t = { u with captured := (n, w) :: s.captured } := by
  constructor
  · rintro ⟨u, hu, rfl⟩
    obtain ⟨w, hw, hpass⟩ := (hp s u).1 hu
    exact ⟨w, hw, u, hpass, by rw [hpass.take_eq, hpass.captured_eq]⟩
  · rintro ⟨w, hw, u, hpass, rfl⟩
    exact ⟨u, (hp s u).2 ⟨w, hw, hpass⟩, by rw [hpass.take_eq, hpass.captured_eq]⟩

/-- A pattern that spells a language captures nothing. -/
theorem Spells.captured_eq {p : Pattern} {L : Language Char} (hp : p.Spells L) {s t : Cursor}
    (h : p.Reaches s t) : t.captured = s.captured := by
  obtain ⟨w, -, hpass⟩ := (hp s t).1 h
  exact hpass.captured_eq

theorem reaches_textEnd_iff {s t : Cursor} :
    textEnd.Reaches s t ↔ t = s ∧ (s.rest = [] ∨ s.rest = ['\n']) := by
  simp [textEnd, Reaches]

theorem all_cons_of_ne_nil (p : Pattern) {ps : List Pattern} (hps : ps ≠ []) :
    all (p :: ps) = seq p (all ps) := by
  obtain ⟨q, qs, rfl⟩ := List.exists_cons_of_ne_nil hps
  rfl

section Sequences

variable {p : Pattern} {ps qs : List Pattern} {s u : Cursor}

theorem reaches_all_cons :
    (all (p :: ps)).Reaches s u ↔ ∃ t, p.Reaches s t ∧ (all ps).Reaches t u := by
  cases ps with
  | nil =>
    constructor
    · exact fun h => ⟨u, h, rfl⟩
    · rintro ⟨t, h, rfl⟩
      exact h
  | cons q qs => rfl

/-- Patterns one after another lead where the first ones lead and then the others. -/
theorem reaches_all_append :
    (all (ps ++ qs)).Reaches s u ↔ ∃ t, (all ps).Reaches s t ∧ (all qs).Reaches t u := by
  induction ps generalizing s with
  | nil =>
    constructor
    · exact fun h => ⟨s, rfl, h⟩
    · rintro ⟨t, rfl, h⟩
      exact h
  | cons p ps ih =>
    rw [List.cons_append, reaches_all_cons]
    simp only [ih, reaches_all_cons]
    constructor
    · rintro ⟨t, h, v, h', h''⟩
      exact ⟨v, ⟨t, h, h'⟩, h''⟩
    · rintro ⟨v, ⟨t, h, h'⟩, h''⟩
      exact ⟨t, h, v, h', h''⟩

end Sequences

section WholeTexts

variable {ps : List Pattern} {Ls : List (Language Char)}

/-- A pattern that ends at the end of a text leads over a text of its language to such an end. -/
theorem reaches_all_textEnd_iff (h : List.Forall₂ Spells ps Ls) {s t : Cursor} :
    (all (ps ++ [textEnd])).Reaches s t ↔ ∃ w ∈ Ls.prod, s.Passes w t ∧
      (t.rest = [] ∨ t.rest = ['\n']) := by
  induction h generalizing s with
  | nil =>
    show textEnd.Reaches s t ↔ _
    rw [reaches_textEnd_iff, List.prod_nil]
    simp only [Language.mem_one, exists_eq_left, Cursor.passes_nil_iff]
    constructor
    · rintro ⟨rfl, hend⟩
      exact ⟨rfl, hend⟩
    · rintro ⟨rfl, hend⟩
      exact ⟨rfl, hend⟩
  | @cons p L ps Ls hp _ ih =>
    rw [List.cons_append,
      all_cons_of_ne_nil p (List.append_ne_nil_of_right_ne_nil ps (List.cons_ne_nil textEnd [])),
      List.prod_cons]
    constructor
    · rintro ⟨u, hsu, hut⟩
      obtain ⟨v, hv, hpass⟩ := (hp s u).1 hsu
      obtain ⟨w, hw, hpass', hend⟩ := ih.1 hut
      exact ⟨v ++ w, Language.append_mem_mul hv hw, hpass.append hpass', hend⟩
    · rintro ⟨_, hvw, hpass, hend⟩
      obtain ⟨v, hv, w, hw, rfl⟩ := Language.mem_mul.1 hvw
      obtain ⟨u, hsu, hut⟩ := Cursor.passes_append_iff.1 hpass
      exact ⟨u, (hp s u).2 ⟨v, hv, hsu⟩, ih.2 ⟨w, hw, hut, hend⟩⟩

/-- **Which texts a pattern matches as a whole.** They are those of its language; a
line feed may follow. -/
theorem isSome_matchStart?_iff (h : List.Forall₂ Spells ps Ls) {cs : List Char} :
    ((all (ps ++ [textEnd])).matchStart? cs).isSome ↔ ∃ w ∈ Ls.prod, cs = w ∨ cs = w ++ ['\n'] := by
  show ((all (ps ++ [textEnd])).run (Cursor.start cs) some).isSome ↔ _
  rw [isSome_run_iff]
  simp only [reaches_all_textEnd_iff h, Option.isSome_some, and_true]
  constructor
  · rintro ⟨t, w, hw, hpass, hend⟩
    refine ⟨w, hw, ?_⟩
    have hrest : cs = w ++ t.rest := hpass.rest_eq
    rcases hend with hend | hend
    · exact .inl (by rw [hrest, hend, List.append_nil])
    · exact .inr (by rw [hrest, hend])
  · rintro ⟨w, hw, h⟩
    have hrest : (Cursor.start cs).rest = w ++ [] ∨ (Cursor.start cs).rest = w ++ ['\n'] :=
      h.imp (fun h => h.trans (List.append_nil w).symm) id
    rcases hrest with hrest | hrest
    all_goals
      obtain ⟨t, hpass, hend⟩ := Cursor.exists_passes hrest
      exact ⟨t, w, hw, hpass, by simp [hend]⟩

end WholeTexts

/-- A match is a place to which the pattern leads from the start of the text. -/
theorem reaches_of_matchStart? {p : Pattern} {cs : List Char} {t : Cursor}
    (h : p.matchStart? cs = some t) : p.Reaches (Cursor.start cs) t := by
  obtain ⟨u, hu, hut⟩ := run_eq_some (p := p) (s := Cursor.start cs) h
  exact Option.some.inj hut ▸ hu

end Pattern
end CodeSurvey
