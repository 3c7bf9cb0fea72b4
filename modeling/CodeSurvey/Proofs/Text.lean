/-
# Laws of cutting and joining texts

The fields of a text hold no separator, and joined by the separator they are the text again
(`Path.joinWith_fields`); texts without a separator are the fields of what they are joined to
(`Text.fields_joinWith`), and of any texts that are joined the fields are those of each of them
(`Text.fields_joinWith_eq_flatten`). So to end with some fields is to be nothing else, or to end
with them after a separator (`Text.isSuffix_fields_iff`). A part that holds no separator lies within
one of the texts that are joined (`Text.exists_infix_of_infix_joinWith`).

No line of a text holds a line end (`Text.isLineEnd_of_mem_lines`), and a line feed makes a text
without line ends a line (`Text.lines_append_lineFeed`). A text whose ends are not blank is trimmed
already (`Text.trim_eq_self`), and what is trimmed has no blank end
(`Text.isBlank_of_getLast?_trim`). Trimming a text that starts with blanks and a word leaves the
word in front (`Text.trim_append`). No word character is blank (`Text.isBlank_of_isWord`).
-/

import CodeSurvey.Path
import Mathlib.Data.List.DropRight

namespace CodeSurvey

open Text

namespace Text

variable {sep c : Char} {cs : List Char}

theorem fields_ne_nil : fields sep cs ≠ [] := fieldsBy_ne_nil _ cs

theorem fields_cons_self : fields sep (sep :: cs) = [] :: fields sep cs := by
  rw [fields, fieldsBy, if_pos BEq.rfl, fields]

/-- A character that is no separator stands at the start of the first field. -/
theorem fields_cons_of_ne (h : c ≠ sep) (cs : List Char) :
    ∃ f fs, fields sep cs = f :: fs ∧ fields sep (c :: cs) = (c :: f) :: fs := by
  obtain ⟨f, fs, hfields⟩ := List.exists_cons_of_ne_nil (fieldsBy_ne_nil (· == sep) cs)
  refine ⟨f, fs, hfields, ?_⟩
  rw [fields, fieldsBy, if_neg (by simpa using h), hfields]

/-- No field holds the separator. -/
theorem not_mem_of_mem_fields {f : List Char} (h : f ∈ fields sep cs) : sep ∉ f := by
  induction cs generalizing f with
  | nil =>
    obtain rfl := List.mem_singleton.1 h
    exact List.not_mem_nil
  | cons c cs ih =>
    by_cases hc : c = sep
    · subst hc
      rw [fields_cons_self, List.mem_cons] at h
      rcases h with rfl | h
      · exact List.not_mem_nil
      · exact ih h
    · obtain ⟨g, gs, hfields, hcons⟩ := fields_cons_of_ne hc cs
      rw [hfields] at ih
      rw [hcons, List.mem_cons] at h
      rcases h with rfl | h
      · exact List.not_mem_cons_of_ne_of_not_mem (Ne.symm hc) (ih (List.mem_cons_self ..))
      · exact ih (List.mem_cons_of_mem _ h)

/-- What stands in a field stands in the text. -/
theorem mem_of_mem_fields {f : List Char} (h : f ∈ fields sep cs) (hc : c ∈ f) : c ∈ cs := by
  induction cs generalizing f with
  | nil =>
    obtain rfl := List.mem_singleton.1 h
    exact hc
  | cons d cs ih =>
    by_cases hd : d = sep
    · subst hd
      rw [fields_cons_self, List.mem_cons] at h
      rcases h with rfl | h
      · exact absurd hc List.not_mem_nil
      · exact List.mem_cons_of_mem d (ih h hc)
    · obtain ⟨g, gs, hfields, hcons⟩ := fields_cons_of_ne hd cs
      rw [hfields] at ih
      rw [hcons, List.mem_cons] at h
      rcases h with rfl | h
      · rcases List.mem_cons.1 hc with rfl | hc
        · exact List.mem_cons_self ..
        · exact List.mem_cons_of_mem d (ih (List.mem_cons_self ..) hc)
      · exact List.mem_cons_of_mem d (ih (List.mem_cons_of_mem g h) hc)

/-- A text without the separator is its only field. -/
theorem fields_of_not_mem (h : sep ∉ cs) : fields sep cs = [cs] := by
  induction cs with
  | nil => rfl
  | cons c cs ih =>
    obtain ⟨f, fs, hfields, hcons⟩ := fields_cons_of_ne (Ne.symm (List.ne_of_not_mem_cons h)) cs
    rw [ih (List.not_mem_of_not_mem_cons h)] at hfields
    cases hfields
    exact hcons

end Text

namespace Path

variable {sep : Char} {cs : List Char} {xs ys : List (List Char)}

theorem joinWith_cons (x : List Char) (h : xs ≠ []) :
    joinWith sep (x :: xs) = x ++ sep :: joinWith sep xs := by
  obtain ⟨y, ys, rfl⟩ := List.exists_cons_of_ne_nil h
  rfl

theorem joinWith_append (hxs : xs ≠ []) (hys : ys ≠ []) :
    joinWith sep (xs ++ ys) = joinWith sep xs ++ sep :: joinWith sep ys := by
  induction xs with
  | nil => exact absurd rfl hxs
  | cons x xs ih =>
    cases xs with
    | nil => exact joinWith_cons x hys
    | cons y zs =>
      have hrest := ih (List.cons_ne_nil y zs)
      rw [List.cons_append, joinWith_cons x (by simp), hrest,
        joinWith_cons x (List.cons_ne_nil y zs), List.append_assoc, List.cons_append]

theorem joinWith_ne_nil (hne : xs ≠ []) (h : ∀ x ∈ xs, x ≠ []) : joinWith sep xs ≠ [] := by
  obtain ⟨x, rest, rfl⟩ := List.exists_cons_of_ne_nil hne
  have hx : x ≠ [] := h x (List.mem_cons_self ..)
  cases rest with
  | nil => exact hx
  | cons y ys => exact fun hnil => hx (List.append_eq_nil_iff.1 hnil).1

/-- What stands in texts that are joined stands in one of them, or is the separator. -/
theorem mem_of_mem_joinWith {c : Char} (h : c ∈ joinWith sep xs) : c = sep ∨ ∃ x ∈ xs, c ∈ x := by
  induction xs with
  | nil => exact absurd h List.not_mem_nil
  | cons x xs ih =>
    by_cases hnil : xs = []
    · subst hnil
      exact .inr ⟨x, List.mem_cons_self .., h⟩
    · rw [joinWith_cons x hnil, List.mem_append, List.mem_cons] at h
      rcases h with h | rfl | h
      · exact .inr ⟨x, List.mem_cons_self .., h⟩
      · exact .inl rfl
      · refine (ih h).imp_right ?_
        rintro ⟨y, hy, hc⟩
        exact ⟨y, List.mem_cons_of_mem x hy, hc⟩

/-- Texts in runs are joined as one list where the runs are joined first, each by itself. -/
theorem joinWith_flatten {runs : List (List (List Char))} (h : ∀ run ∈ runs, run ≠ []) :
    joinWith sep runs.flatten = joinWith sep (runs.map (joinWith sep)) := by
  induction runs with
  | nil => rfl
  | cons run runs ih =>
    obtain ⟨hrun, hruns⟩ := List.forall_mem_cons.1 h
    cases runs with
    | nil => rw [List.flatten_singleton, List.map_singleton, joinWith]
    | cons next rest =>
      have hflat : (next :: rest).flatten ≠ [] := by
        rw [List.flatten_cons]
        exact fun heq => hruns next (List.mem_cons_self ..) (List.append_eq_nil_iff.1 heq).1
      have hjoin : joinWith sep ((run :: next :: rest).map (joinWith sep)) =
          joinWith sep run ++ sep :: joinWith sep ((next :: rest).map (joinWith sep)) :=
        joinWith_cons _ (List.cons_ne_nil _ _)
      rw [List.flatten_cons, joinWith_append hrun hflat, ih hruns, hjoin]

/-- The fields of a text, joined again, are the text. -/
theorem joinWith_fields : joinWith sep (fields sep cs) = cs := by
  induction cs with
  | nil => rfl
  | cons c cs ih =>
    by_cases hc : c = sep
    · subst hc
      have hjoin : joinWith c ([] :: fields c cs) = [] ++ c :: joinWith c (fields c cs) :=
        joinWith_cons [] (fieldsBy_ne_nil _ cs)
      rw [fields_cons_self, hjoin, ih, List.nil_append]
    · obtain ⟨f, fs, hfields, hcons⟩ := fields_cons_of_ne hc cs
      rw [hfields] at ih
      rw [hcons, ← ih]
      cases fs <;> rfl

/-- The fields of a text, joined by another separator, are the text with the one separator in
the place of the other. -/
theorem joinWith_fields_of_other (sep other : Char) (cs : List Char) :
    joinWith other (fields sep cs) = cs.map fun c => if c == sep then other else c := by
  induction cs with
  | nil => rfl
  | cons c cs ih =>
    by_cases hc : c = sep
    · subst hc
      have hjoin : joinWith other ([] :: fields c cs) = [] ++ other ::
          joinWith other (fields c cs) :=
        joinWith_cons [] (fieldsBy_ne_nil _ cs)
      rw [fields_cons_self, hjoin, ih, List.map_cons, if_pos (beq_self_eq_true c), List.nil_append]
    · obtain ⟨f, fs, hfields, hcons⟩ := fields_cons_of_ne hc cs
      rw [hfields] at ih
      rw [hcons, List.map_cons, ← ih, if_neg (by simpa using hc)]
      cases fs <;> rfl

end Path

namespace Text

variable {sep c : Char} {cs tail : List Char} {xs : List (List Char)}

/-- Texts without the separator are the fields of what they are joined to. -/
theorem fields_joinWith (hne : xs ≠ []) (h : ∀ x ∈ xs, sep ∉ x) :
    fields sep (Path.joinWith sep xs) = xs := by
  induction xs with
  | nil => exact absurd rfl hne
  | cons x xs ih =>
    obtain ⟨hx, hxs⟩ := List.forall_mem_cons.1 h
    by_cases hnil : xs = []
    · subst hnil
      exact fields_of_not_mem hx
    · rw [Path.joinWith_cons x hnil, fields_append_separator, fields_of_not_mem hx, ih hnil hxs]
      rfl

/-- The fields of texts that are joined are the fields of each of them. -/
theorem fields_joinWith_eq_flatten (hne : xs ≠ []) :
    fields sep (Path.joinWith sep xs) = (xs.map (fields sep)).flatten := by
  induction xs with
  | nil => exact absurd rfl hne
  | cons x xs ih =>
    by_cases hnil : xs = []
    · subst hnil
      exact (List.append_nil _).symm
    · rw [Path.joinWith_cons x hnil, fields_append_separator, ih hnil, List.map_cons,
        List.flatten_cons]

/-- **To end with fields** is to be nothing but them, or to end with them after a separator. -/
theorem isSuffix_fields_iff (hne : xs ≠ []) (h : ∀ x ∈ xs, sep ∉ x) :
    xs <:+ fields sep cs ↔ cs = Path.joinWith sep xs ∨ (sep :: Path.joinWith sep xs) <:+ cs := by
  constructor
  · rintro ⟨ys, hys⟩
    have hcs : cs = Path.joinWith sep (ys ++ xs) := by rw [hys, Path.joinWith_fields]
    by_cases hnil : ys = []
    · subst hnil
      exact .inl hcs
    · exact .inr ⟨Path.joinWith sep ys, by rw [hcs, Path.joinWith_append hnil hne]⟩
  · rintro (rfl | ⟨ys, rfl⟩)
    · exact (fields_joinWith hne h).symm ▸ List.suffix_refl xs
    · rw [fields_append_separator, fields_joinWith hne h]
      exact List.suffix_append ..

/-- Two texts are the same if they are the same before, at and after the first
character that passes a test. -/
theorem append_cons_inj {p : Char → Bool} {a a' b b' : List Char} {c c' : Char}
    (ha : ∀ x ∈ a, p x = false) (ha' : ∀ x ∈ a', p x = false) (hc : p c = true) (hc' : p c' = true)
    (h : a ++ c :: b = a' ++ c' :: b') : a = a' ∧ c = c' ∧ b = b' := by
  induction a generalizing a' with
  | nil =>
    cases a' with
    | nil => exact ⟨rfl, List.cons.inj h⟩
    | cons d a' =>
      obtain ⟨rfl, -⟩ := List.cons.inj h
      exact absurd hc (Bool.eq_false_iff.1 (ha' c (List.mem_cons_self ..)))
  | cons d a ih =>
    cases a' with
    | nil =>
      obtain ⟨rfl, -⟩ := List.cons.inj h
      exact absurd hc' (Bool.eq_false_iff.1 (ha d (List.mem_cons_self ..)))
    | cons d' a' =>
      obtain ⟨rfl, htail⟩ := List.cons.inj h
      obtain ⟨rfl, hrest⟩ := ih (List.forall_mem_cons.1 ha).2 (List.forall_mem_cons.1 ha').2 htail
      exact ⟨rfl, hrest⟩

/-- Two texts are the same if they are the same before and after the first separator. -/
theorem append_cons_inj_of_not_mem {a a' b b' : List Char} (ha : sep ∉ a) (ha' : sep ∉ a')
    (h : a ++ sep :: b = a' ++ sep :: b') : a = a' ∧ b = b' := by
  have hother : ∀ {t : List Char}, sep ∉ t → ∀ c ∈ t, (c == sep) = false :=
    fun ht c hc => beq_eq_false_iff_ne.2 (ne_of_mem_of_not_mem hc ht)
  obtain ⟨hhead, -, htail⟩ := append_cons_inj (hother ha) (hother ha') BEq.rfl BEq.rfl h
  exact ⟨hhead, htail⟩

/-- An end without the separator, of two texts with the separator between them, is
an end of the second. -/
theorem suffix_of_suffix_append_cons {a b t : List Char} (h : t <:+ a ++ sep :: b) (ht : sep ∉ t) :
    t <:+ b := by
  rcases List.suffix_or_suffix_of_suffix h (List.suffix_append a (sep :: b)) with h | h
  · rcases List.suffix_cons_iff.1 h with rfl | h
    · exact absurd (List.mem_cons_self ..) ht
    · exact h
  · exact absurd (h.subset (List.mem_cons_self ..)) ht

/-- A part without the separator, of two texts with the separator between them, is
a part of one of them. -/
theorem infix_or_infix_of_infix_append_cons {a b t : List Char} (h : t <:+: a ++ sep :: b)
    (ht : sep ∉ t) : t <:+: a ∨ t <:+: b := by
  obtain ⟨u, hsuffix, hpart⟩ := List.infix_iff_suffix_prefix.1 h
  rcases List.prefix_or_prefix_of_prefix hpart (List.prefix_append a (sep :: b)) with hu | ⟨v, rfl⟩
  · exact .inl (hsuffix.isInfix.trans hu.isInfix)
  · rcases List.prefix_cons_iff.1 ((List.prefix_append_right_inj a).1 hpart) with rfl | ⟨w, rfl, hw⟩
    · rw [List.append_nil] at hsuffix
      exact .inl hsuffix.isInfix
    · exact .inr ((suffix_of_suffix_append_cons hsuffix ht).isInfix.trans hw.isInfix)

/-- An end without the separator, of texts joined by it, is an end of one of them. -/
theorem exists_suffix_of_suffix_joinWith {t : List Char} (hne : xs ≠ [])
    (h : t <:+ Path.joinWith sep xs) (ht : sep ∉ t) : ∃ x ∈ xs, t <:+ x := by
  obtain ⟨init, x, rfl⟩ := (List.eq_nil_or_concat' xs).resolve_left hne
  refine ⟨x, by simp, ?_⟩
  by_cases hnil : init = []
  · subst hnil
    exact h
  · rw [Path.joinWith_append hnil (List.cons_ne_nil x [])] at h
    exact suffix_of_suffix_append_cons h ht

/-- A part without the separator, of texts joined by it, is a part of one of them. -/
theorem exists_infix_of_infix_joinWith {t : List Char} (hne : xs ≠ [])
    (h : t <:+: Path.joinWith sep xs) (ht : sep ∉ t) : ∃ x ∈ xs, t <:+: x := by
  induction xs with
  | nil => exact absurd rfl hne
  | cons x xs ih =>
    by_cases hnil : xs = []
    · subst hnil
      exact ⟨x, List.mem_singleton_self x, h⟩
    · rw [Path.joinWith_cons x hnil] at h
      rcases infix_or_infix_of_infix_append_cons h ht with h | h
      · exact ⟨x, List.mem_cons_self .., h⟩
      · obtain ⟨y, hy, hinfix⟩ := ih hnil h
        exact ⟨y, List.mem_cons_of_mem _ hy, hinfix⟩

theorem cutAt_append_cons {a : List Char} (h : sep ∉ a) (b : List Char) :
    cutAt sep (a ++ sep :: b) = (a, some b) := by
  induction a with
  | nil => rw [List.nil_append, cutAt, if_pos (beq_self_eq_true sep)]
  | cons c a ih =>
    have hc : ¬(c == sep) = true := by simpa using Ne.symm (List.ne_of_not_mem_cons h)
    rw [List.cons_append, cutAt, if_neg hc, ih (List.not_mem_of_not_mem_cons h)]

/-- What stands on a line stands in the text and ends no line. -/
theorem mem_and_isLineEnd_of_mem_lines {l : List Char} (h : l ∈ lines cs) (hc : c ∈ l) :
    c ∈ cs ∧ isLineEnd c = false := by
  induction cs using lines.induct generalizing l with
  | case1 => exact absurd h List.not_mem_nil
  | case2 rest ih =>
    rw [lines, List.mem_cons] at h
    rcases h with rfl | h
    · exact absurd hc List.not_mem_nil
    · exact (ih h hc).imp_left fun hmem => List.mem_cons_of_mem _ (List.mem_cons_of_mem _ hmem)
  | case3 d rest hpair hend ih =>
    rw [lines.eq_3 _ _ hpair, if_pos hend, List.mem_cons] at h
    rcases h with rfl | h
    · exact absurd hc List.not_mem_nil
    · exact (ih h hc).imp_left (List.mem_cons_of_mem _)
  | case4 d rest hpair hend hrest ih =>
    rw [lines.eq_3 _ _ hpair, if_neg hend, hrest, List.mem_singleton] at h
    rw [h, List.mem_singleton] at hc
    rw [hc]
    exact ⟨List.mem_cons_self .., Bool.eq_false_iff.2 hend⟩
  | case5 d rest hpair hend first others hrest ih =>
    rw [lines.eq_3 _ _ hpair, if_neg hend, hrest, List.mem_cons] at h
    rw [hrest] at ih
    rcases h with rfl | h
    · rcases List.mem_cons.1 hc with rfl | hc
      · exact ⟨List.mem_cons_self .., Bool.eq_false_iff.2 hend⟩
      · exact (ih (List.mem_cons_self ..) hc).imp_left (List.mem_cons_of_mem _)
    · exact (ih (List.mem_cons_of_mem _ h) hc).imp_left (List.mem_cons_of_mem _)

/-- No line holds a line end. -/
theorem isLineEnd_of_mem_lines {l : List Char} (h : l ∈ lines cs) (hc : c ∈ l) :
    isLineEnd c = false :=
  (mem_and_isLineEnd_of_mem_lines h hc).2

theorem lines_cons_of_not_isLineEnd (h : isLineEnd c = false) (cs : List Char) :
    lines (c :: cs) = ((lines cs).headD []).cons c :: (lines cs).tail := by
  have hpair : ∀ r, c = '\r' → cs = '\n' :: r → False := by
    rintro r rfl
    cases h
  rw [lines.eq_3 c cs hpair, h, if_neg Bool.false_ne_true]
  cases lines cs <;> rfl

/-- A text without line ends stands at the start of the first line. -/
theorem lines_append_of_not_isLineEnd {a : List Char} (ha : ∀ c ∈ a, isLineEnd c = false)
    (hne : a ≠ []) (b : List Char) :
    lines (a ++ b) = (a ++ (lines b).headD []) :: (lines b).tail := by
  induction a with
  | nil => exact absurd rfl hne
  | cons c a ih =>
    obtain ⟨hc, ha⟩ := List.forall_mem_cons.1 ha
    rw [List.cons_append, lines_cons_of_not_isLineEnd hc]
    by_cases hnil : a = []
    · subst hnil
      rfl
    · rw [ih ha hnil]
      rfl

/-- A line feed ends the line of a text without line ends. -/
theorem lines_append_lineFeed {a : List Char} (ha : ∀ c ∈ a, isLineEnd c = false) (b : List Char) :
    lines (a ++ '\n' :: b) = a :: lines b := by
  have hfeed : lines ('\n' :: b) = [] :: lines b := rfl
  by_cases hnil : a = []
  · subst hnil
    exact hfeed
  · rw [lines_append_of_not_isLineEnd ha hnil, hfeed, List.headD_cons, List.tail_cons,
      List.append_nil]

theorem trim_sublist (cs : List Char) : (trim cs).Sublist cs := by
  have hpart : trim cs <+: cs.dropWhile isBlank :=
    List.rdropWhile_prefix isBlank (cs.dropWhile isBlank)
  exact hpart.sublist.trans (List.dropWhile_sublist isBlank)

/-- What is trimmed was there before. -/
theorem mem_of_mem_trim (h : c ∈ trim cs) : c ∈ cs := (trim_sublist cs).subset h

/-- A text whose ends are not blank is trimmed already. -/
theorem trim_eq_self (hhead : ∀ c ∈ cs.head?, isBlank c = false)
    (hlast : ∀ c ∈ cs.getLast?, isBlank c = false) : trim cs = cs := by
  have hstart : cs.dropWhile isBlank = cs := by
    rw [List.dropWhile_eq_self_iff]
    intro hpos
    rw [hhead cs[0] (by simp [List.head?_eq_getElem?])]
    exact Bool.false_ne_true
  rw [trim, trimEnd, trimStart, hstart]
  refine List.rdropWhile_eq_self_iff.2 fun hne => ?_
  rw [hlast _ (List.getLast?_eq_some_getLast hne)]
  exact Bool.false_ne_true

/-- A text with a character that is not blank is more than blanks. -/
theorem trim_ne_nil (hc : c ∈ cs) (h : isBlank c = false) : trim cs ≠ [] := by
  intro hnil
  have hstart : cs.dropWhile isBlank ≠ [] := by
    rw [Ne, List.dropWhile_eq_nil_iff, not_forall]
    exact ⟨c, fun hall => Bool.eq_false_iff.1 h (hall hc)⟩
  have hblank := List.rdropWhile_eq_nil_iff.1 hnil _ (List.head_mem hstart)
  exact Bool.eq_false_iff.1 (List.head_dropWhile_not isBlank hstart) hblank

theorem trim_of_blank (h : ∀ c ∈ cs, isBlank c = true) : trim cs = [] := by
  rw [trim, trimStart, List.dropWhile_eq_nil_iff.2 h]
  rfl

/-- Blanks at the end are trimmed. -/
theorem trim_append_blanks {b : List Char} (hb : ∀ c ∈ b, isBlank c = true) (a : List Char) :
    trim (a ++ b) = trim a := by
  have hend (x : List Char) : trimEnd (x ++ b) = trimEnd x := by
    rw [trimEnd, trimEnd, dropEndWhile, List.reverse_append,
      List.dropWhile_append_of_pos fun c hc => hb c (List.mem_reverse.1 hc), dropEndWhile]
  rw [trim, trim, trimStart, trimStart, List.dropWhile_append]
  split
  · rename_i hnil
    rw [List.isEmpty_iff.1 hnil, List.dropWhile_eq_nil_iff.2 hb]
  · exact hend _

/-- Trimming takes the blanks before a text without blanks, and those at the
end of what follows it. -/
theorem trim_append {lead w rest : List Char} (hlead : ∀ c ∈ lead, isBlank c = true) (hne : w ≠ [])
    (hw : ∀ c ∈ w, isBlank c = false) : trim (lead ++ (w ++ rest)) = w ++ trimEnd rest := by
  have hend : trimEnd (w ++ rest) = w ++ trimEnd rest := by
    have hrest : w.reverse.dropWhile isBlank = w.reverse := by
      refine List.dropWhile_eq_self_iff.2 fun hpos => ?_
      rw [hw _ (List.mem_reverse.1 (List.getElem_mem hpos))]
      exact Bool.false_ne_true
    rw [trimEnd, trimEnd, dropEndWhile, dropEndWhile, List.reverse_append,
      List.dropWhile_append, hrest]
    split_ifs with hnil
    · rw [List.isEmpty_iff.1 hnil, List.reverse_nil, List.append_nil, List.reverse_reverse]
    · rw [List.reverse_append, List.reverse_reverse]
  obtain ⟨c, w, rfl⟩ := List.exists_cons_of_ne_nil hne
  have hstart : trimStart (lead ++ (c :: w ++ rest)) = c :: w ++ rest := by
    rw [trimStart, List.dropWhile_append_of_pos hlead, List.cons_append, List.dropWhile_cons_of_neg]
    rw [hw c (List.mem_cons_self ..)]
    exact Bool.false_ne_true
  rw [trim, hstart, hend]

/-- What is trimmed does not start with a blank. -/
theorem isBlank_of_head?_trim (h : (trim cs).head? = some c) : isBlank c = false := by
  have hpart : trim cs <+: cs.dropWhile isBlank :=
    List.rdropWhile_prefix isBlank (cs.dropWhile isBlank)
  obtain ⟨rest, hrest⟩ := List.head?_eq_some_iff.1 h
  obtain ⟨more, hmore⟩ := hpart
  have hhead := List.head?_dropWhile_not isBlank cs
  rw [← hmore, hrest] at hhead
  exact hhead

/-- What is trimmed does not end with a blank. -/
theorem isBlank_of_getLast?_trim (h : (trim cs).getLast? = some c) : isBlank c = false := by
  obtain ⟨hne, rfl⟩ := List.mem_getLast?_eq_getLast h
  exact Bool.eq_false_iff.2 (List.rdropWhile_last_not isBlank (cs.dropWhile isBlank) hne)

/-- Membership in a class by a list of its switches. -/
theorem inRuns_eq_foldl (switches : Array Nat) (n : Nat) :
    inRuns switches n = switches.toList.foldl (fun inside s =>
      if s ≤ n then !inside else inside) false := by
  rw [inRuns, ← Array.foldl_toList]

/-- The code points of the blank characters of ASCII. -/
def narrowBlanks : List Nat := List.range' 9 5 ++ List.range' 28 5

/-- The code points of the other blank characters. -/
def wideBlanks : List Nat :=
  [0x85, 0xA0, 0x1680] ++ List.range' 0x2000 11 ++ [0x2028, 0x2029, 0x202F, 0x205F, 0x3000]

theorem mem_blanks_of_isBlank (h : isBlank c = true) :
    c.toNat ∈ narrowBlanks ∨ c.toNat ∈ wideBlanks := by
  simp only [isBlank, Bool.or_eq_true, Bool.and_eq_true, decide_eq_true_eq, beq_iff_eq] at h
  simp only [narrowBlanks, wideBlanks, List.mem_append, List.mem_range'_1, List.mem_cons,
    List.not_mem_nil]
  omega

/-- No word character is blank. -/
theorem isBlank_of_isWord (h : isWord c = true) : isBlank c = false := by
  have hnarrow : ∀ n ∈ narrowBlanks, isWord (Char.ofNat n) = false := by decide +kernel
  have hwide : ∀ n ∈ wideBlanks, 128 ≤ n ∧
      wordRuns.toList.foldl (fun inside s => if s ≤ n then !inside else inside) false = false := by
        decide +kernel
  by_contra hblank
  rw [Bool.not_eq_false] at hblank
  rcases mem_blanks_of_isBlank hblank with hmem | hmem
  · have hnot := hnarrow _ hmem
    rw [Char.ofNat_toNat, h] at hnot
    cases hnot
  · obtain ⟨hlarge, hnot⟩ := hwide _ hmem
    rw [isWord, if_neg (Nat.not_lt.2 hlarge), inRuns_eq_foldl, hnot] at h
    cases h

end Text
end CodeSurvey
