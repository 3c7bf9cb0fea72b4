/-
# Imports of a quoted specifier

The patterns for imports of JavaScript and TypeScript have one form: what leads up to a specifier,
the specifier in quotes, and what follows it (`FromText.quoting`). On a line with one quoted
specifier such a pattern can match only from a place before the opening quote: what leads up to a
specifier starts with a word character and has no quote, so a match that started behind the opening
quote would need a second quoted text on the line (`QuotedLine.unique_of_reaches`). Words of the
specifier that look like an import are no import.
-/

import CodeSurvey.Proofs.Import.Lines

namespace CodeSurvey

namespace Cursor

variable {s t : Cursor} {w : List Char}

/-- What was captured before stays captured. -/
theorem passes_captured_iff {captured : List (Nat × List Char)} :
    ({ s with captured } : Cursor).Passes w t ↔ ∃ u, s.Passes w u ∧ t = { u with captured } := by
  constructor
  · intro h
    refine ⟨{ t with captured := s.captured }, ⟨h.rest_eq, h.before_eq, h.offset_eq, rfl⟩, ?_⟩
    exact ext_of_rest rfl rfl rfl h.captured_eq
  · rintro ⟨u, h, rfl⟩
    exact ⟨h.rest_eq, h.before_eq, h.offset_eq, rfl⟩

end Cursor

namespace FromText

open Pattern Text

/-- Whether a text can stand in quotes on one line. -/
structure IsSpecifier (cs : List Char) : Prop where
  ne_nil : cs ≠ []
  isQuote_eq_false : ∀ c ∈ cs, isQuote c = false
  not_mem : '\n' ∉ cs

variable {s t u : Cursor}

/-- Where the pattern for a quoted specifier leads. -/
theorem reaches_quotedSpecifier_iff :
    quotedSpecifier.Reaches s t ↔ ∃ q v q' u, isQuote q = true ∧ isQuote q' = true ∧
    IsSpecifier v ∧ s.Passes (q :: (v ++ [q'])) u ∧
      t = { u with captured := (1, v) :: s.captured } := by
  have hspecifier : ∀ v : List Char, v ∈ oneOf (fun c => !isQuote c && c != '\n') *
      KStar.kstar (oneOf fun c => !isQuote c && c != '\n') ↔ IsSpecifier v := by
    intro v
    rw [mem_some_oneOf]
    simp only [Bool.and_eq_true, Bool.not_eq_true', bne_iff_ne]
    constructor
    · rintro ⟨hne, hall⟩
      exact ⟨hne, fun c hc => (hall c hc).1, fun hmem => (hall _ hmem).2 rfl⟩
    · rintro ⟨hne, hquote, hline⟩
      exact ⟨hne, fun c hc => ⟨hquote c hc, ne_of_mem_of_not_mem hc hline⟩⟩
  have hcapture : ∀ s t, (capture 1 (some1 (char fun c => !isQuote c && c != '\n'))).Reaches s t ↔
      ∃ v, IsSpecifier v ∧ ∃ u, s.Passes v u ∧ t = { u with captured := (1, v) :: s.captured } := by
    intro s t
    rw [reaches_capture_iff (spells_char _).some1]
    simp only [hspecifier]
  rw [quotedSpecifier, reaches_all_cons]
  simp only [reaches_all_cons]
  constructor
  · rintro ⟨a, ha, b, hb, c, hc, rfl⟩
    obtain ⟨_, ⟨q, hq, rfl⟩, hsa⟩ := (spells_char isQuote s a).1 ha
    obtain ⟨v, hv, b', hab, rfl⟩ := (hcapture a b).1 hb
    obtain ⟨_, ⟨q', hq', rfl⟩, hbt⟩ := (spells_char isQuote _ _).1 hc
    obtain ⟨t', hbt', rfl⟩ := Cursor.passes_captured_iff.1 hbt
    exact ⟨q, v, q', t', hq, hq', hv, hsa.append (hab.append hbt'), by rw [hsa.captured_eq]⟩
  · rintro ⟨q, v, q', u, hq, hq', hv, hsu, rfl⟩
    obtain ⟨a, hsa, hau⟩ :=
      Cursor.passes_append_iff.1 (show s.Passes ([q] ++ (v ++ [q'])) u from hsu)
    obtain ⟨b, hab, hbu⟩ := Cursor.passes_append_iff.1 hau
    refine ⟨a, (spells_char isQuote s a).2 ⟨[q], ⟨q, hq, rfl⟩, hsa⟩, _,
      (hcapture a _).2 ⟨v, hv, b, hab, rfl⟩, _, ?_, rfl⟩
    refine (spells_char isQuote _ _).2 ⟨[q'], ⟨q', hq', rfl⟩,
      Cursor.passes_captured_iff.2 ⟨u, hbu, ?_⟩⟩
    rw [hsa.captured_eq]

/-- A quoted specifier with what leads up to it, from a word edge on, and what follows it. -/
def quoting (as bs : List Pattern) : Pattern := all (wordEdge :: (as ++ quotedSpecifier :: bs))

section Quoting

variable {as bs : List Pattern} {L M : Language Char}

/-- Where a pattern for an import of a quoted specifier leads. -/
theorem reaches_quoting_iff (has : (all as).Spells L) (hbs : (all bs).Spells M) :
    (quoting as bs).Reaches s t ↔ (s.before.any isWord != s.rest.head?.any isWord) = true ∧
      ∃ v ∈ L, ∃ q cs q', ∃ z ∈ M, ∃ u, isQuote q = true ∧ isQuote q' = true ∧ IsSpecifier cs ∧
        s.Passes (v ++ (q :: (cs ++ (q' :: z)))) u ∧
          t = { u with captured := (1, cs) :: s.captured } := by
  rw [quoting, reaches_all_cons]
  simp only [reaches_all_append, reaches_all_cons, reaches_quotedSpecifier_iff]
  constructor
  · rintro ⟨_, ⟨rfl, hedge⟩, a, ha, b, ⟨q, cs, q', b', hq, hq', hcs, hab, rfl⟩, hbt⟩
    obtain ⟨v, hv, hsa⟩ := (has _ a).1 ha
    obtain ⟨z, hz, hbt⟩ := (hbs _ t).1 hbt
    obtain ⟨u, hbu, rfl⟩ := Cursor.passes_captured_iff.1 hbt
    refine ⟨hedge, v, hv, q, cs, q', z, hz, u, hq, hq', hcs, ?_, by rw [hsa.captured_eq]⟩
    simpa using hsa.append (hab.append hbu)
  · rintro ⟨hedge, v, hv, q, cs, q', z, hz, u, hq, hq', hcs, hsu, rfl⟩
    obtain ⟨a, hsa, hau⟩ := Cursor.passes_append_iff.1 hsu
    obtain ⟨b, hab, hbu⟩ :=
      Cursor.passes_append_iff.1 (show a.Passes ((q :: (cs ++ [q'])) ++ z) u by simpa using hau)
    refine ⟨s, ⟨rfl, hedge⟩, a, (has s a).2 ⟨v, hv, hsa⟩, _,
      ⟨q, cs, q', b, hq, hq', hcs, hab, rfl⟩, ?_⟩
    exact (hbs _ _).2 ⟨z, hz, Cursor.passes_captured_iff.2 ⟨u, hbu, by rw [hsa.captured_eq]⟩⟩

end Quoting

/-- A line with a quoted specifier and no other quote. -/
structure QuotedLine where
  opening : List Char
  quote : Char
  specifier : List Char
  closing : List Char
  isQuote_quote : isQuote quote = true
  isSpecifier : IsSpecifier specifier
  opening_unquoted : ∀ c ∈ opening, isQuote c = false
  closing_unquoted : ∀ c ∈ closing, isQuote c = false ∧ isWord c = false

namespace QuotedLine

/-- The text of the line. -/
def text (l : QuotedLine) : List Char :=
  l.opening ++ l.quote :: (l.specifier ++ l.quote :: l.closing)

/-- Whether the texts of a language can lead up to a quoted specifier: they start with a word
character and have no quote. -/
def LeadsUp (L : Language Char) : Prop :=
  ∀ v ∈ L, v.head?.any isWord = true ∧ ∀ c ∈ v, isQuote c = false

variable {L : Language Char} {l : QuotedLine} {v x y r cs tail : List Char} {q q' : Char}

/-- What follows the closing quote on the line is followed by no second quoted text. -/
theorem closing_append_ne (htail : ∀ c ∈ tail.head?, c = '\n') (hq' : isQuote q' = true)
    (hcs : '\n' ∉ cs) : l.closing ++ tail ≠ cs ++ q' :: r := by
  intro h
  have hfeed : isQuote '\n' = false := by decide
  rcases List.append_eq_append_iff.1 h with ⟨a, rfl, ha⟩ | ⟨a, hclosing, ha⟩
  · rcases a with _ | ⟨c, a⟩
    · rw [htail q' (by rw [ha]; rfl), hfeed] at hq'
      cases hq'
    · refine hcs ?_
      rw [htail c (by rw [ha]; rfl)]
      exact List.mem_append_right _ (List.mem_cons_self ..)
  · rcases a with _ | ⟨c, a⟩
    · rw [htail q' (by rw [List.nil_append] at ha; rw [← ha]; rfl), hfeed] at hq'
      cases hq'
    · obtain ⟨rfl, -⟩ := List.cons.inj ha
      have hmem : q' ∈ l.closing := by
        rw [hclosing]
        exact List.mem_append_right _ (List.mem_cons_self ..)
      rw [(l.closing_unquoted q' hmem).1] at hq'
      cases hq'

/-- No text that leads up to a specifier starts behind the closing quote. -/
theorem head?_ne_of_suffix (htail : ∀ c ∈ tail.head?, c = '\n') (hy : y <:+ l.closing) :
    (y ++ tail).head?.any isWord = false := by
  rcases y with _ | ⟨c, y⟩
  · cases hhead : tail.head? with
    | none => rw [List.nil_append, hhead]; rfl
    | some c =>
      rw [List.nil_append, hhead, htail c hhead]
      decide
  · exact (l.closing_unquoted c (hy.subset (List.mem_cons_self ..))).2

/-- **A quoted specifier is found in one way.** What leads up to it stands before the opening quote
of the line, and the specifier is that of the line. -/
theorem unique_of_append_eq (hL : LeadsUp L) (htail : ∀ c ∈ tail.head?, c = '\n')
    (hline : l.text = x ++ y) (hv : v ∈ L) (hq : isQuote q = true) (hq' : isQuote q' = true)
    (hcs : IsSpecifier cs) (h : y ++ tail = v ++ q :: (cs ++ q' :: r)) :
    l.opening = x ++ v ∧ q = l.quote ∧ cs = l.specifier ∧ q' = l.quote ∧ r = l.closing ++ tail := by
  obtain ⟨hword, hunquoted⟩ := hL v hv
  have hhead : (y ++ tail).head?.any isWord = true := by
    rcases v with _ | ⟨c, v⟩
    · cases hword
    · rw [h]
      exact hword
  have hquote : ∀ {c}, isQuote c = true → isWord c = false := by
    intro c hc
    simp only [isQuote, Bool.or_eq_true, beq_iff_eq, or_assoc] at hc
    rcases hc with rfl | rfl | rfl <;> decide
  rcases List.append_eq_append_iff.1 hline with ⟨a, rfl, ha⟩ | ⟨a, hopening, ha⟩
  · -- The match would start at the opening quote or behind it.
    exfalso
    rcases a with _ | ⟨c, a⟩
    · rw [List.nil_append] at ha
      rw [← ha, List.cons_append, List.head?_cons, Option.any_some, hquote l.isQuote_quote] at hhead
      cases hhead
    · obtain ⟨rfl, hrest⟩ := List.cons.inj ha
      rcases List.append_eq_append_iff.1 hrest with ⟨b, rfl, hb⟩ | ⟨b, hspecifier, hb⟩
      · rcases b with _ | ⟨c, b⟩
        · rw [List.nil_append] at hb
          rw [← hb, List.cons_append, List.head?_cons, Option.any_some,
            hquote l.isQuote_quote] at hhead
          cases hhead
        · rw [head?_ne_of_suffix htail ⟨b, (List.cons.inj hb).2.symm⟩] at hhead
          cases hhead
      · have hinner : b ++ l.quote :: (l.closing ++ tail) = v ++ q :: (cs ++ q' :: r) := by
          rw [← h, hb, List.append_assoc, List.cons_append]
        have hb' : ∀ c ∈ b, isQuote c = false := fun c hc =>
          l.isSpecifier.isQuote_eq_false c (hspecifier ▸ List.mem_append_right a hc)
        obtain ⟨-, -, hrest⟩ := append_cons_inj hb' hunquoted l.isQuote_quote hq hinner
        exact closing_append_ne htail hq' hcs.not_mem hrest
  · have houter : a ++ l.quote :: (l.specifier ++ l.quote :: (l.closing ++ tail)) = v ++ q ::
        (cs ++ q' :: r) := by
      rw [← h, ha]
      simp
    have ha' : ∀ c ∈ a, isQuote c = false := fun c hc =>
      l.opening_unquoted c (hopening ▸ List.mem_append_right x hc)
    obtain ⟨rfl, rfl, hrest⟩ := append_cons_inj ha' hunquoted l.isQuote_quote hq houter
    obtain ⟨rfl, rfl, rfl⟩ :=
      append_cons_inj l.isSpecifier.isQuote_eq_false hcs.isQuote_eq_false l.isQuote_quote hq' hrest
    exact ⟨hopening, rfl, rfl, rfl, rfl⟩

section Finds

variable {as bs : List Pattern} {M : Language Char}

/-- A match on the line starts before the opening quote and captures the specifier. -/
theorem exists_of_reaches (has : (all as).Spells L) (hbs : (all bs).Spells M) (hL : LeadsUp L)
    {s t u m : Cursor} (hpass : s.Passes l.text t) (hend : t.AtLineEnd) (hline : l.text = x ++ y)
    (hplace : s.Passes x u) (h : (quoting as bs).Reaches { u with captured := [] } m) :
    ∃ v ∈ L, l.opening = x ++ v ∧ ∃ z ∈ M, z <+: l.closing ++ t.rest ∧
      ∃ w, u.Passes (v ++ l.quote :: (l.specifier ++ l.quote :: z)) w ∧
        m = { w with captured := [(1, l.specifier)] } := by
  obtain ⟨-, v, hv, q, cs, q', z, hz, w, hq, hq', hcs, hw, rfl⟩ := (reaches_quoting_iff has hbs).1 h
  obtain ⟨w', hw', rfl⟩ := Cursor.passes_captured_iff.1 hw
  have hrest : y ++ t.rest = v ++ q :: (cs ++ q' :: (z ++ w'.rest)) := by
    have hsame : x ++ (y ++ t.rest) = x ++ u.rest := by
      rw [← List.append_assoc, ← hline, ← hpass.rest_eq, hplace.rest_eq]
    rw [List.append_cancel_left hsame, hw'.rest_eq]
    simp
  obtain ⟨hopening, rfl, rfl, rfl, hclosing⟩ :=
    unique_of_append_eq hL hend hline hv hq hq' hcs hrest
  exact ⟨v, hv, hopening, z, hz, ⟨w'.rest, hclosing⟩, w', hw', rfl⟩

theorem advances_quoting (has : (all as).Spells L) (hbs : (all bs).Spells M) :
    (quoting as bs).Advances := by
  intro s t h
  obtain ⟨-, v, -, q, cs, q', z, -, u, -, -, -, hpass, rfl⟩ := (reaches_quoting_iff has hbs).1 h
  have := hpass.left_eq
  rw [List.length_append, List.length_cons] at this
  show u.left < s.left
  omega

/-- At the end of a line no import of a quoted specifier starts. -/
theorem skipsLineEnds_quoting (has : (all as).Spells L) (hbs : (all bs).Spells M) (hL : LeadsUp L) :
    (quoting as bs).SkipsLineEnds := by
  intro s hend
  refine matchAt?_eq_none_iff.2 fun t h => ?_
  obtain ⟨-, v, hv, q, cs, q', z, -, u, -, -, -, hpass, -⟩ := (reaches_quoting_iff has hbs).1 h
  obtain ⟨hword, -⟩ := hL v hv
  rcases v with _ | ⟨c, v⟩
  · cases hword
  · have hrest : s.rest = c :: (v ++ q :: (cs ++ q' :: z) ++ u.rest) := hpass.rest_eq
    have hfeed : isWord '\n' = false := by decide
    rw [List.head?_cons, Option.any_some, hend c (by rw [hrest]; rfl), hfeed] at hword
    cases hword

/-- A line whose opening does not end in a text that leads up to a specifier has no such import. -/
theorem findsOn_nil (has : (all as).Spells L) (hbs : (all bs).Spells M) (hL : LeadsUp L)
    (hopening : ∀ x v, l.opening = x ++ v → v ∉ L) : (quoting as bs).FindsOn l.text [] := by
  refine Pattern.findsOn_nil (advances_quoting has hbs) fun s t _ hpass hend x u hx _ hplace => ?_
  obtain ⟨y, hy⟩ := hx
  refine matchAt?_eq_none_iff.2 fun m hm => ?_
  obtain ⟨v, hv, hxv, -⟩ := exists_of_reaches has hbs hL hpass hend hy.symm hplace hm
  exact hopening x v hxv hv

/-- **A line whose opening ends in a text that leads up to a specifier** has one import,
that of the specifier. -/
theorem findsOn_singleton (has : (all as).Spells L) (hbs : (all bs).Spells M) (hL : LeadsUp L)
    {z c : List Char} (hopening : l.opening = x ++ v) (hv : v ∈ L)
    (hedge : x.getLast?.any isWord = false) (hfirst : ∀ x' v', l.opening = x' ++ v' → v' ∈ L →
        x.length ≤ x'.length) (hclosing : l.closing = z ++ c) (hz : z ∈ M)
    (honly : ∀ tail z', z' ∈ M → z' <+: l.closing ++ tail → z' = z) :
    (quoting as bs).FindsOn l.text [⟨x.length, [(1, l.specifier)]⟩] := by
  have htext : l.text = x ++ ((v ++ l.quote :: (l.specifier ++ l.quote :: z)) ++ c) := by
    rw [text, hopening, hclosing]
    simp
  rw [htext]
  refine Pattern.findsOn_singleton (advances_quoting has hbs) ?_ ?_
  · intro s t u hstart hpass hend hplace
    rw [← htext] at hpass
    obtain ⟨u', hplace', hpass'⟩ := Cursor.passes_append_iff.1 (htext ▸ hpass)
    obtain rfl := hplace.unique hplace'
    obtain ⟨m, hm, -⟩ := Cursor.passes_append_iff.1 hpass'
    refine ⟨m, matchAt?_of_unique ?_ fun n hn => ?_, hm⟩
    · refine (reaches_quoting_iff has hbs).2 ⟨?_, v, hv, l.quote, l.specifier, l.quote, z, hz,
        { m with captured := [] }, l.isQuote_quote, l.isQuote_quote, l.isSpecifier,
        Cursor.passes_captured_iff.2 ⟨m, hm, rfl⟩, rfl⟩
      have hbefore : u.before.any isWord = false := by
        rw [hplace.before_eq]
        cases hlast : x.getLast? with
        | some c => rwa [hlast] at hedge
        | none =>
          cases hs : s.before with
          | none => rfl
          | some c =>
            rw [Option.none_or, hstart c hs]
            decide
      have hhead : u.rest.head?.any isWord = true := by
        have hword := (hL v hv).1
        rw [hm.rest_eq]
        rcases v with _ | ⟨c, v⟩
        · cases hword
        · exact hword
      rw [hbefore, hhead]
      rfl
    · obtain ⟨v', -, hxv, z', hz', hprefix, w, hw, rfl⟩ :=
        exists_of_reaches has hbs hL hpass hend htext hplace hn
      obtain rfl := List.append_cancel_left (hopening.symm.trans hxv)
      obtain rfl := honly _ z' hz' hprefix
      rw [hw.unique hm]
  · intro s t hstart hpass hend x' u hx' _ hlength hplace
    rw [← htext] at hpass hx'
    obtain ⟨y, hy⟩ := hx'
    refine matchAt?_eq_none_iff.2 fun m hm => ?_
    obtain ⟨v', hv', hxv, -⟩ := exists_of_reaches has hbs hL hpass hend hy.symm hplace hm
    have := hfirst x' v' hxv hv'
    have hlonger := congrArg List.length (hopening.symm.trans hxv)
    rw [List.length_append, List.length_append] at hlonger
    rw [List.length_append, List.length_cons] at hlength
    omega

end Finds
end QuotedLine
end FromText
end CodeSurvey
