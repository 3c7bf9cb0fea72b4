/-
# Imports behind a keyword

The patterns for imports of Python have one form: a keyword at the start of a line, with blanks
before it or none and blanks behind it, and what follows (`FromText.keyworded`). Such a pattern does
not match a line that starts with another keyword, or on which something else follows the keyword
(`FromText.matchAt?_keyworded_eq_none`).
-/

import CodeSurvey.Proofs.Import.Lines
import CodeSurvey.Proofs.Pattern.Preference
import Mathlib.Data.Bool.AllAny

namespace CodeSurvey
namespace FromText

open Pattern Text

/-- A space or a tab. -/
def isGap (c : Char) : Bool := c == ' ' || c == '\t'

/-- What follows a keyword at the start of a line. -/
def keyworded (k : String) (ps : List Pattern) : Pattern :=
  all (lineStart :: many gap :: word k :: some1 gap :: ps)

/-- Whether a text can be a keyword: it is not empty and has neither blanks nor line feeds. -/
structure IsKeyword (k : List Char) : Prop where
  ne_nil : k ≠ []
  isGap_eq_false : ∀ c ∈ k, isGap c = false
  not_mem : '\n' ∉ k

theorem isKeyword_from : IsKeyword "from".toList :=
  ⟨by decide, List.all_iff_forall_prop.1 (by decide), by decide⟩

theorem isKeyword_import : IsKeyword "import".toList :=
  ⟨by decide, List.all_iff_forall_prop.1 (by decide), by decide⟩

variable {k : String} {ps : List Pattern} {s t : Cursor}

/-- A keyword with what belongs to it stands at the start of a line, between blanks. -/
theorem reaches_keyworded (h : (keyworded k ps).Reaches s t) : s.AtLineStart ∧
    ∃ g d g' u, (∀ c ∈ g, isGap c = true) ∧ isGap d = true ∧ (∀ c ∈ g', isGap c = true) ∧
      s.Passes (g ++ (k.toList ++ d :: g')) u ∧ (all ps).Reaches u t := by
  obtain ⟨_, ⟨rfl, hstart⟩, h₁⟩ := reaches_all_cons.1 h
  obtain ⟨a, ha, h₂⟩ := reaches_all_cons.1 h₁
  obtain ⟨b, hb, h₃⟩ := reaches_all_cons.1 h₂
  obtain ⟨u, hu, hrest⟩ := reaches_all_cons.1 h₃
  obtain ⟨g, hg, hsa⟩ := ((spells_char isGap).many _ a).1 ha
  obtain ⟨_, rfl, hab⟩ := (spells_word k a b).1 hb
  obtain ⟨w, hw, hbu⟩ := ((spells_char isGap).some1 b u).1 hu
  obtain ⟨hne, hgaps⟩ := mem_some_oneOf.1 hw
  obtain ⟨d, g', rfl⟩ := List.exists_cons_of_ne_nil hne
  obtain ⟨hd, hg'⟩ := List.forall_mem_cons.1 hgaps
  refine ⟨fun c hc => ?_, g, d, g', u, mem_kstar_oneOf.1 hg, hd, hg',
    hsa.append (hab.append hbu), hrest⟩
  rw [hc] at hstart
  exact beq_iff_eq.1 hstart

theorem advances_keyworded (k : String) (ps : List Pattern) : (keyworded k ps).Advances := by
  intro s t h
  obtain ⟨-, g, d, g', u, -, -, -, hpass, hrest⟩ := reaches_keyworded h
  have hle := left_le_of_reaches hrest
  have hleft := hpass.left_eq
  rw [List.length_append, List.length_append, List.length_cons] at hleft
  omega

theorem anchored_keyworded (k : String) (ps : List Pattern) : (keyworded k ps).Anchored :=
  fun _ _ h => (reaches_keyworded h).1

/-- No keyword stands at the end of a line. -/
theorem skipsLineEnds_keyworded (hk : IsKeyword k.toList) (ps : List Pattern) :
    (keyworded k ps).SkipsLineEnds := by
  intro s hend
  refine matchAt?_eq_none_iff.2 fun t h => ?_
  obtain ⟨-, g, d, g', u, hg, -, -, hpass, -⟩ := reaches_keyworded h
  have hrest : s.rest = g ++ (k.toList ++ d :: g') ++ u.rest := hpass.rest_eq
  obtain ⟨c, cs, hcs⟩ := List.exists_cons_of_ne_nil hk.ne_nil
  rcases g with _ | ⟨e, g⟩
  · rw [List.nil_append, hcs] at hrest
    have hfeed := hend c (by rw [hrest]; rfl)
    exact hk.not_mem (by rw [hcs, hfeed]; exact List.mem_cons_self ..)
  · have hgap := hg e (List.mem_cons_self ..)
    rw [hend e (by rw [hrest]; rfl)] at hgap
    exact absurd hgap (by decide)

/-- **A line with another keyword, or with something else behind it,** is not matched. -/
theorem matchAt?_keyworded_eq_none (hk : IsKeyword k.toList) {k' r : List Char} {c : Char}
    (hk' : IsKeyword k') (hc : isGap c = false) (hrest : s.rest = k' ++ ' ' :: c :: r)
    (hother : k.toList = k' → ∀ u v : Cursor, u.rest.head? = some c → ¬(all ps).Reaches u v) :
    (keyworded k ps).matchAt? s = none := by
  refine matchAt?_eq_none_iff.2 fun t h => ?_
  obtain ⟨-, g, d, g', u, hg, hd, hg', hpass, ht⟩ := reaches_keyworded h
  have htext : g ++ (k.toList ++ d :: g') ++ u.rest = k' ++ ' ' :: c :: r :=
    hpass.rest_eq.symm.trans hrest
  obtain ⟨e, es, hes⟩ := List.exists_cons_of_ne_nil hk'.ne_nil
  have hgnil : g = [] := by
    rcases g with _ | ⟨f, g⟩
    · rfl
    · rw [hes, List.cons_append, List.cons_append, List.cons_append] at htext
      obtain ⟨rfl, -⟩ := List.cons.inj htext
      have hgap := hg f (List.mem_cons_self ..)
      rw [hk'.isGap_eq_false f (hes ▸ List.mem_cons_self ..)] at hgap
      cases hgap
  subst hgnil
  have hcut : k.toList ++ d :: (g' ++ u.rest) = k' ++ ' ' :: (c :: r) := by simpa using htext
  obtain ⟨hsame, -, hbehind⟩ :=
    append_cons_inj hk.isGap_eq_false hk'.isGap_eq_false hd (by decide) hcut
  rcases g' with _ | ⟨f, g'⟩
  · exact hother hsame u t (by rw [List.nil_append] at hbehind; rw [hbehind]; rfl) ht
  · obtain ⟨rfl, -⟩ := List.cons.inj hbehind
    rw [hg' f (List.mem_cons_self ..)] at hc
    cases hc

/-- A capture that starts with a character of a class starts at such a character. -/
theorem exists_head?_of_reaches {test : Char → Bool} {b : Pattern} {n : Nat}
    (h : (all (capture n (seq (char test) b) :: ps)).Reaches s t) :
    ∃ c, s.rest.head? = some c ∧ test c = true := by
  obtain ⟨_, ⟨u, ⟨v, ⟨c, hnext, hc⟩, -⟩, -⟩, -⟩ := reaches_all_cons.1 h
  exact ⟨c, by rw [(Cursor.next?_eq_some_iff.1 hnext).rest_eq]; rfl, hc⟩

/-- One blank that no other follows is taken as the blanks between two words. -/
theorem takes_blank {before : Option Char} {ahead : List Char}
    (hahead : ∀ c ∈ ahead.head?, isGap c = false) : (some1 gap).Takes before [' '] ahead [] :=
  takes_some1 (List.cons_ne_nil ' ' []) (List.forall_mem_singleton.2 rfl) hahead

/-- Behind a keyword at the start of a line and one blank stands what belongs to the keyword. -/
theorem takes_keyworded (hk : IsKeyword k.toList) {before : Option Char}
    (hbefore : ∀ c ∈ before, c = '\n') {w ahead : List Char} {captured : List (Nat × List Char)}
    (hhead : ∀ c ∈ (w ++ ahead).head?, isGap c = false)
    (hps : (all ps).Takes (some ' ') w ahead captured) :
    (keyworded k ps).Takes before (k.toList ++ ' ' :: w) ahead captured := by
  have hstart : before.all (· == '\n') = true := by
    cases before with
    | none => rfl
    | some c => exact beq_iff_eq.2 (hbefore c rfl)
  have hgap : (all (some1 gap :: ps)).Takes (k.toList.getLast?.or before) ([' '] ++ w) ahead
      (captured ++ []) :=
    (takes_blank hhead).all_cons hps
  have hkeyword : (all (word k :: some1 gap :: ps)).Takes before (k.toList ++ ([' '] ++ w)) ahead
      (captured ++ [] ++ []) :=
    (takes_word k).all_cons hgap
  have hnogap : ∀ c ∈ ((k.toList ++ ([' '] ++ w)) ++ ahead).head?, isGap c = false := by
    obtain ⟨d, ds, hds⟩ := List.exists_cons_of_ne_nil hk.ne_nil
    intro c hc
    rw [hds] at hc
    obtain rfl := Option.some.inj hc
    exact hk.isGap_eq_false d (hds ▸ List.mem_cons_self ..)
  have hall : (keyworded k ps).Takes before ([] ++ ([] ++ (k.toList ++ ([' '] ++ w)))) ahead
      (captured ++ [] ++ [] ++ [] ++ []) :=
    (takes_place hstart).all_cons
      ((takes_many (fun c hc => absurd hc List.not_mem_nil) hnogap).all_cons hkeyword)
  simpa using hall

end FromText
end CodeSurvey
