/-
# What globs match

A glob matches a text of which its pieces match parts, one after the other (`Glob.accepts_append`):
a star any part, and every other piece a single character. So what follows a star is matched at the
end of a text, whatever stands before it (`Glob.accepts_star_cons`), and what a glob with a star at
its end matches it also matches with more behind it (`Glob.accepts_append_of_getLast?`). A glob that
starts with a star and avoids a character matches a name in a path where it matches the path, if
that character stands between the names (`Glob.Floats.exists_of_accepts_joinWith`).

The pieces of a glob end with the piece of its last character, unless a bracket stands there
(`Glob.getLast?_parse_concat`). Hence an end that stands for itself is an end of every text that is
matched (`Glob.head?_of_accepts_parse`, `Glob.getLast?_of_accepts_parse`).

A character that stands for itself parts a glob without sets (`Glob.parse_append_cons`). So a glob
that is joined of several by it matches the texts that are joined of parts, one for each
(`Glob.accepts_parse_joinWith`).
-/

import CodeSurvey.Glob
import CodeSurvey.Proofs.Text
import Mathlib.Data.List.Forall2
import Mathlib.Data.List.Infix

namespace CodeSurvey
namespace Glob

variable {p : Piece} {ps qs : Pieces} {c : Char} {cs a b inside rest : List Char}

theorem accepts_nil : accepts [] cs = true ↔ cs = [] := List.isEmpty_iff

/-- Behind a star the pieces match an end of the text. -/
theorem accepts_star_cons :
    accepts (.star :: ps) cs = true ↔ ∃ b, b <:+ cs ∧ accepts ps b = true := by
  rw [accepts, List.any_eq_true]
  constructor
  · rintro ⟨n, -, h⟩
    exact ⟨cs.drop n, List.drop_suffix n cs, h⟩
  · rintro ⟨b, ⟨a, rfl⟩, h⟩
    refine ⟨a.length, ?_, by rwa [List.drop_left]⟩
    rw [List.mem_range, List.length_append]
    omega

/-- A piece that is no star matches one character. -/
theorem accepts_cons (hp : p ≠ .star) :
    accepts (p :: ps) cs = true ↔ ∃ c rest, cs = c :: rest ∧ p.accepts c = true ∧
      accepts ps rest = true := by
  cases cs with
  | nil => cases p <;> simp_all [accepts]
  | cons d ds => cases p <;> simp_all [accepts]

/-- **Pieces one after the other** match parts one after the other. -/
theorem accepts_append :
    accepts (ps ++ qs) cs = true ↔ ∃ a b, cs = a ++ b ∧ accepts ps a = true ∧
      accepts qs b = true := by
  induction ps generalizing cs with
  | nil => simp [accepts_nil]
  | cons p ps ih =>
    rw [List.cons_append]
    by_cases hp : p = .star
    · subst hp
      simp only [accepts_star_cons, ih]
      constructor
      · rintro ⟨-, ⟨a, rfl⟩, b, d, rfl, hb, hd⟩
        exact ⟨a ++ b, d, (List.append_assoc ..).symm, ⟨b, List.suffix_append .., hb⟩, hd⟩
      · rintro ⟨-, d, rfl, ⟨b, ⟨a, rfl⟩, hb⟩, hd⟩
        exact ⟨b ++ d, ⟨a, (List.append_assoc ..).symm⟩, b, d, rfl, hb, hd⟩
    · simp only [accepts_cons hp, ih]
      constructor
      · rintro ⟨c, -, rfl, hc, a, b, rfl, ha, hb⟩
        exact ⟨c :: a, b, rfl, ⟨c, a, rfl, hc, ha⟩, hb⟩
      · rintro ⟨-, b, rfl, ⟨c, a, rfl, hc, ha⟩, hb⟩
        exact ⟨c, a ++ b, rfl, hc, a, b, rfl, ha, hb⟩

/-- A star matches everything. -/
theorem accepts_star : accepts [.star] cs = true := accepts_star_cons.2 ⟨[], List.nil_suffix, rfl⟩

/-- Between two stars the pieces match a part of the text. -/
theorem accepts_star_cons_concat_star :
    accepts (.star :: ps ++ [.star]) cs = true ↔ ∃ b, b <:+: cs ∧ accepts ps b = true := by
  simp only [List.cons_append, accepts_star_cons, accepts_append]
  constructor
  · rintro ⟨-, hsuffix, b, d, rfl, hb, -⟩
    exact ⟨b, ((List.prefix_append b d).isInfix).trans hsuffix.isInfix, hb⟩
  · rintro ⟨b, ⟨a, d, rfl⟩, hb⟩
    exact ⟨b ++ d, ⟨a, (List.append_assoc ..).symm⟩, b, d, rfl, hb,
      accepts_star_cons.1 accepts_star⟩

/-- With a star at their end, pieces match more behind what they match. -/
theorem accepts_append_of_getLast? (hlast : ps.getLast? = some .star) (h : accepts ps a = true)
    (b : List Char) : accepts ps (a ++ b) = true := by
  obtain ⟨init, rfl⟩ := List.getLast?_eq_some_iff.1 hlast
  obtain ⟨d, e, rfl, hd, -⟩ := accepts_append.1 h
  exact accepts_append.2 ⟨d, e ++ b, List.append_assoc .., hd, accepts_star⟩

/-- Pieces of which none stands for a character match no text with it. -/
theorem not_mem_of_accepts (hps : ∀ p ∈ ps, p ≠ .star ∧ p.accepts c = false)
    (h : accepts ps cs = true) : c ∉ cs := by
  induction ps generalizing cs with
  | nil => exact accepts_nil.1 h ▸ List.not_mem_nil
  | cons p ps ih =>
    obtain ⟨⟨hstar, hc⟩, hps⟩ := List.forall_mem_cons.1 hps
    obtain ⟨d, rest, rfl, hd, hrest⟩ := (accepts_cons hstar).1 h
    have hne : c ≠ d := by
      rintro rfl
      rw [hc] at hd
      cases hd
    exact List.not_mem_cons_of_ne_of_not_mem hne (ih hps hrest)

/-- Whether pieces match wherever a part of a text does: a star comes first, perhaps another one
last, and all between stands for single characters, but not for `c`. -/
def Floats (c : Char) (qs : Pieces) : Prop :=
  ∃ ps, (∀ p ∈ ps, p ≠ .star ∧ p.accepts c = false) ∧
    (qs = .star :: ps ∨ qs = .star :: ps ++ [.star])

theorem Floats.head? (h : Floats c qs) : qs.head? = some .star := by
  obtain ⟨ps, -, rfl | rfl⟩ := h <;> rfl

/-- With a star at their start, pieces match more before what they match. -/
theorem accepts_of_suffix (hhead : qs.head? = some .star) (h : accepts qs b = true)
    (hb : b <:+ cs) : accepts qs cs = true := by
  obtain ⟨ps, rfl⟩ := List.head?_eq_some_iff.1 hhead
  obtain ⟨a, ha, haccepts⟩ := accepts_star_cons.1 h
  exact accepts_star_cons.2 ⟨a, ha.trans hb, haccepts⟩

/-- **What floats matches one of some texts** if it matches them joined by the
character that it avoids. -/
theorem Floats.exists_of_accepts_joinWith {xs : List (List Char)} (h : Floats c qs) (hne : xs ≠ [])
    (haccepts : accepts qs (Path.joinWith c xs) = true) : ∃ x ∈ xs, accepts qs x = true := by
  obtain ⟨ps, hps, rfl | rfl⟩ := h
  · obtain ⟨b, hb, haccepts⟩ := accepts_star_cons.1 haccepts
    obtain ⟨x, hx, hsuffix⟩ :=
      Text.exists_suffix_of_suffix_joinWith hne hb (not_mem_of_accepts hps haccepts)
    exact ⟨x, hx, accepts_star_cons.2 ⟨b, hsuffix, haccepts⟩⟩
  · obtain ⟨b, hb, haccepts⟩ := accepts_star_cons_concat_star.1 haccepts
    obtain ⟨x, hx, hinfix⟩ :=
      Text.exists_infix_of_infix_joinWith hne hb (not_mem_of_accepts hps haccepts)
    exact ⟨x, hx, accepts_star_cons_concat_star.2 ⟨b, hinfix, haccepts⟩⟩

theorem getLast?_of_accepts (hlast : ps.getLast? = some (.char c)) (h : accepts ps cs = true) :
    cs.getLast? = some c := by
  obtain ⟨init, rfl⟩ := List.getLast?_eq_some_iff.1 hlast
  obtain ⟨a, b, rfl, -, hb⟩ := accepts_append.1 h
  obtain ⟨d, rest, rfl, hd, hrest⟩ := (accepts_cons (by simp)).1 hb
  obtain rfl := accepts_nil.1 hrest
  obtain rfl : d = c := by simpa [Piece.accepts] using hd
  exact List.getLast?_concat

/-- The piece that a character stands for at the end of a glob. -/
def lastPiece (c : Char) : Piece := if c = '*' then .star else if c = '?' then .any else .char c

theorem parse_cons_of_ne (hstar : c ≠ '*') (hany : c ≠ '?') (hset : c ≠ '[') :
    parse (c :: cs) = .char c :: parse cs := by
  rw [parse]
  · exact hstar
  · exact hany
  · exact hset

/-- What one more character in front does to a glob: a star may melt into one that follows, a set
takes characters up to its bracket with it, and all else is a piece of its own. -/
theorem parse_cons (c : Char) (cs : List Char) :
    parse (c :: cs) = parse cs ∨ (∃ p, parse (c :: cs) = p :: parse cs) ∨
      ∃ p inside rest, bracketed? cs = some (inside, rest) ∧ parse (c :: cs) = p :: parse rest := by
  by_cases hstar : c = '*'
  · subst hstar
    rw [parse]
    split
    · rename_i h
      exact .inl h.symm
    · exact .inr (.inl ⟨_, rfl⟩)
  · by_cases hany : c = '?'
    · subst hany
      rw [parse]
      exact .inr (.inl ⟨_, rfl⟩)
    · by_cases hset : c = '['
      · subst hset
        rw [parse]
        split
        · exact .inr (.inl ⟨_, rfl⟩)
        · rename_i inside rest h
          exact .inr (.inr ⟨_, inside, rest, h, rfl⟩)
      · exact .inr (.inl ⟨_, parse_cons_of_ne hstar hany hset⟩)

theorem leading_suffix (c : Char) (cs : List Char) : (leading c cs).2 <:+ cs := by
  unfold leading
  split
  · exact List.tail_suffix cs
  · exact List.suffix_refl cs

/-- What follows the closing bracket of a set stands behind that bracket. -/
theorem suffix_of_bracketed? (h : bracketed? cs = some (inside, rest)) : (']' :: rest) <:+ cs := by
  unfold bracketed? at h
  dsimp only at h
  split at h
  · cases h
  · rename_i d rest' hdrop
    cases h
    have hd : d = ']' := by
      have hhead := List.head?_dropWhile_not (· != ']') (leading ']' (leading '!' cs).2).2
      rw [hdrop] at hhead
      simpa using hhead
    have hsuffix := (List.dropWhile_suffix (· != ']')).trans
      ((leading_suffix ']' (leading '!' cs).2).trans (leading_suffix '!' cs))
    rw [hdrop, hd] at hsuffix
    exact hsuffix

theorem parse_singleton (c : Char) : parse [c] = [lastPiece c] := by
  unfold lastPiece
  split
  · rename_i h
    subst h
    simp [parse]
  · rename_i hstar
    split
    · rename_i h
      subst h
      simp [parse]
    · rename_i hany
      by_cases hset : c = '['
      · subst hset
        rw [parse]
        simp [parse, bracketed?, leading]
      · rw [parse_cons_of_ne hstar hany hset, parse]

/-- **The last character of a glob makes its last piece**, unless it may close a set. -/
theorem getLast?_parse_concat (h : c ≠ ']') (cs : List Char) :
    (parse (cs ++ [c])).getLast? = some (lastPiece c) := by
  -- What follows a set is shorter than the glob, but no tail of it, so the
  -- induction is on the length.
  induction hlength : cs.length using Nat.strong_induction_on generalizing cs with
  | _ n ih =>
    subst hlength
    cases cs with
    | nil => rw [List.nil_append, parse_singleton, List.getLast?_singleton]
    | cons d ds =>
      have hds := ih ds.length (Nat.lt_succ_self _) ds rfl
      rw [List.cons_append]
      rcases parse_cons d (ds ++ [c]) with heq | ⟨p, heq⟩ | ⟨p, inside, rest, hinside, heq⟩
      · rw [heq, hds]
      · rw [heq, List.getLast?_cons, hds, Option.getD_some]
      · obtain ⟨pre, hpre⟩ := suffix_of_bracketed? hinside
        -- The bracket that closes the set is not the last character, so that one is in the rest.
        rcases List.eq_nil_or_concat' rest with rfl | ⟨init, e, rfl⟩
        · have hlast := (List.append_inj' hpre rfl).2
          exact absurd (List.singleton_inj.1 hlast).symm h
        · rw [← List.cons_append, ← List.append_assoc] at hpre
          obtain ⟨hinit, hlast⟩ := List.append_inj' hpre rfl
          obtain rfl := List.singleton_inj.1 hlast
          have hlt : init.length < (d :: ds).length := by
            rw [← hinit, List.length_cons, List.length_append, List.length_cons]
            omega
          rw [heq, List.getLast?_cons, ih init.length hlt init rfl, Option.getD_some]

/-- A first character that stands for itself is the first one of a text that is matched. -/
theorem head?_of_accepts_parse (hstar : c ≠ '*') (hany : c ≠ '?') (hset : c ≠ '[')
    (h : accepts (parse (c :: cs)) a = true) : a.head? = some c := by
  rw [parse_cons_of_ne hstar hany hset] at h
  obtain ⟨d, rest, rfl, hd, -⟩ := (accepts_cons (by simp)).1 h
  obtain rfl : d = c := by simpa [Piece.accepts] using hd
  rfl

/-- A last character that stands for itself is the last one of a text that is matched. -/
theorem getLast?_of_accepts_parse (hstar : c ≠ '*') (hany : c ≠ '?') (hset : c ≠ ']')
    (h : accepts (parse (cs ++ [c])) a = true) : a.getLast? = some c := by
  refine getLast?_of_accepts ?_ h
  rw [getLast?_parse_concat hset, lastPiece, if_neg hstar, if_neg hany]

/-- Pieces with a star before them, which melts into one that is there. -/
def starred : Pieces → Pieces
  | .star :: ps => .star :: ps
  | ps => .star :: ps

theorem parse_star_cons (cs : List Char) : parse ('*' :: cs) = starred (parse cs) := by
  rw [parse]
  rfl

theorem parse_any_cons (cs : List Char) : parse ('?' :: cs) = .any :: parse cs := by rw [parse]

theorem starred_append (ps qs : Pieces) (c : Char) :
    starred (ps ++ .char c :: qs) = starred ps ++ .char c :: qs := by
  cases ps with
  | nil => rfl
  | cons p ps => cases p <;> rfl

/-- A star that melts into another one matches no less. -/
theorem accepts_starred : accepts (starred ps) cs = true ↔ ∃ b, b <:+ cs ∧ accepts ps b = true := by
  cases ps with
  | nil => exact accepts_star_cons
  | cons p ps =>
    cases p with
    | star => exact ⟨fun h => ⟨cs, List.suffix_refl cs, h⟩,
        fun ⟨b, hb, h⟩ => accepts_of_suffix rfl h hb⟩
    | any => exact accepts_star_cons
    | set negated ranges => exact accepts_star_cons
    | char c => exact accepts_star_cons

/-- A character that stands for itself parts a glob, if no set is before it. -/
theorem parse_append_cons (hset : '[' ∉ cs) (hc : c ≠ '*' ∧ c ≠ '?' ∧ c ≠ '[') (rest : List Char) :
    parse (cs ++ c :: rest) = parse cs ++ .char c :: parse rest := by
  induction cs with
  | nil => rw [List.nil_append, parse_cons_of_ne hc.1 hc.2.1 hc.2.2, parse, List.nil_append]
  | cons x xs ih =>
    have ih := ih (List.not_mem_of_not_mem_cons hset)
    have hx : x ≠ '[' := fun heq => hset (heq ▸ List.mem_cons_self ..)
    rw [List.cons_append]
    by_cases hstar : x = '*'
    · subst hstar
      rw [parse_star_cons, parse_star_cons, ih, starred_append]
    · by_cases hany : x = '?'
      · subst hany
        rw [parse_any_cons, parse_any_cons, ih, List.cons_append]
      · rw [parse_cons_of_ne hstar hany hx, parse_cons_of_ne hstar hany hx, ih, List.cons_append]

/-- **A glob that is joined of several** matches the texts that are joined of
parts, one matched by each. -/
theorem accepts_parse_joinWith {globs : List (List Char)} (hne : globs ≠ [])
    (hset : ∀ g ∈ globs, '[' ∉ g) (hc : c ≠ '*' ∧ c ≠ '?' ∧ c ≠ '[') :
    accepts (parse (Path.joinWith c globs)) cs = true ↔
      ∃ parts, cs = Path.joinWith c parts ∧
        List.Forall₂ (fun g part => accepts (parse g) part = true) globs parts := by
  induction globs generalizing cs with
  | nil => exact absurd rfl hne
  | cons g gs ih =>
    obtain ⟨hg, hgs⟩ := List.forall_mem_cons.1 hset
    by_cases hnil : gs = []
    · subst hnil
      constructor
      · exact fun h => ⟨[cs], rfl, .cons h .nil⟩
      · rintro ⟨parts, rfl, hparts⟩
        cases hparts with
        | cons h hrest =>
          cases hrest
          exact h
    · rw [Path.joinWith_cons g hnil, parse_append_cons hg hc, accepts_append]
      simp only [accepts_cons (p := .char c) (by simp), ih hnil hgs, Piece.accepts, beq_iff_eq]
      constructor
      · rintro ⟨a, -, rfl, ha, d, -, rfl, rfl, parts, rfl, hparts⟩
        have hne' : parts ≠ [] := fun heq => hnil (List.forall₂_nil_right_iff.1 (heq ▸ hparts))
        exact ⟨a :: parts, (Path.joinWith_cons a hne').symm, .cons ha hparts⟩
      · rintro ⟨parts, rfl, hparts⟩
        cases hparts with
        | @cons _ a _ parts ha hparts =>
          have hne' : parts ≠ [] := fun heq => hnil (List.forall₂_nil_right_iff.1 (heq ▸ hparts))
          exact ⟨a, _, Path.joinWith_cons a hne', ha, c, _, rfl, rfl, parts, rfl, hparts⟩

/-- A glob without wildcards matches itself alone. -/
theorem accepts_parse_iff_eq (h : '*' ∉ cs ∧ '?' ∉ cs ∧ '[' ∉ cs) :
    accepts (parse cs) a = true ↔ a = cs := by
  induction cs generalizing a with
  | nil => rw [parse, accepts_nil]
  | cons x xs ih =>
    simp only [List.mem_cons, not_or] at h
    rw [parse_cons_of_ne (Ne.symm h.1.1) (Ne.symm h.2.1.1) (Ne.symm h.2.2.1),
      accepts_cons (by simp)]
    simp only [Piece.accepts, beq_iff_eq, ih ⟨h.1.2, h.2.1.2, h.2.2.2⟩]
    constructor
    · rintro ⟨d, rest, rfl, rfl, rfl⟩
      rfl
    · rintro rfl
      exact ⟨x, xs, rfl, rfl, rfl⟩

/-- A glob without sets matches itself. -/
theorem accepts_parse_self (hset : '[' ∉ cs) : accepts (parse cs) cs = true := by
  induction cs with
  | nil => rw [parse, accepts_nil]
  | cons x xs ih =>
    have ih := ih (List.not_mem_of_not_mem_cons hset)
    have hx : x ≠ '[' := fun heq => hset (heq ▸ List.mem_cons_self ..)
    by_cases hstar : x = '*'
    · subst hstar
      rw [parse_star_cons, accepts_starred]
      exact ⟨xs, List.suffix_cons .., ih⟩
    · by_cases hany : x = '?'
      · subst hany
        rw [parse_any_cons, accepts_cons (by simp)]
        exact ⟨'?', xs, rfl, rfl, ih⟩
      · rw [parse_cons_of_ne hstar hany hx, accepts_cons (by simp)]
        exact ⟨x, xs, rfl, beq_self_eq_true x, ih⟩

end Glob
end CodeSurvey
