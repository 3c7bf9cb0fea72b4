/-
# Searching a text line by line

A pattern that never matches the empty text is searched for place by place: a match that starts at a
place is found and the search goes on where it ends (`Pattern.findFrom_of_matchAt?`), and where none
starts the search goes on at the next place (`Pattern.findFrom_of_next?`). So the match that is
found first is the one that starts first (`Pattern.searchFrom_spec`).

What is found on one line of a text does not depend on the other lines if no match reaches beyond
its line (`Pattern.FindsOn`). Then the matches in a text are those on its lines, each as far from
the start of its line as if there were no other line (`Pattern.hits_joinWith`). Where the lines
stand is their `layout`.
-/

import CodeSurvey.Proofs.Pattern
import CodeSurvey.Proofs.Text

namespace CodeSurvey

/-- Something that stands on a line, with the offset of the line and its number. -/
structure Placed (ι : Type) where
  item : ι
  offset : Nat
  number : Nat

section Layout

variable {ι : Type}

/-- The lines of a text one below the other, from an offset and a line number on. -/
def layout (text : ι → List Char) : (offset number : Nat) → List ι → List (Placed ι)
  | _, _, [] => []
  | offset, number, x :: xs =>
    ⟨x, offset, number⟩ :: layout text (offset + (text x).length + 1) (number + 1) xs

variable {text : ι → List Char}

/-- The lines are numbered one by one. -/
theorem map_layout (offset number : Nat) (xs : List ι) :
    (layout text offset number xs).map (fun l => (l.item, l.number)) = xs.zipIdx number := by
  induction xs generalizing offset number with
  | nil => rfl
  | cons x xs ih => rw [layout, List.map_cons, ih, List.zipIdx_cons]

/-- What stands before a line of a text: as many characters as its offset says, and as many
line feeds as its number. -/
theorem exists_append_of_mem_layout (htext : ∀ x, '\n' ∉ text x) {offset number : Nat} {xs : List ι}
    {l : Placed ι} (h : l ∈ layout text offset number xs) :
    l.item ∈ xs ∧ ∃ before after,
      Path.joinWith '\n' (xs.map text) = before ++ text l.item ++ after ∧
      l.offset = offset + before.length ∧ l.number = number + before.count '\n' := by
  induction xs generalizing offset number with
  | nil => cases h
  | cons x xs ih =>
    rcases List.mem_cons.1 h with rfl | h
    · refine ⟨List.mem_cons_self .., [], ?_⟩
      rcases eq_or_ne xs [] with rfl | hne
      · exact ⟨[], by simp [Path.joinWith], rfl, rfl⟩
      · exact ⟨'\n' :: Path.joinWith '\n' (xs.map text),
          Path.joinWith_cons (text x) (mt List.map_eq_nil_iff.1 hne), rfl, rfl⟩
    · obtain ⟨hmem, before, after, hjoin, hoffset, hnumber⟩ := ih h
      have hne : xs.map text ≠ [] := List.ne_nil_of_mem (List.mem_map_of_mem hmem)
      refine ⟨List.mem_cons_of_mem x hmem, text x ++ '\n' :: before, after, ?_, ?_, ?_⟩
      · rw [List.map_cons, Path.joinWith_cons (text x) hne, hjoin]
        simp
      · rw [hoffset, List.length_append, List.length_cons]
        omega
      · rw [hnumber, List.count_append, List.count_eq_zero_of_not_mem (htext x),
          List.count_cons_self]
        omega

/-- A line ends before the next one starts. -/
theorem pairwise_layout (offset number : Nat) (xs : List ι) :
    (layout text offset number xs).Pairwise fun l m =>
      l.offset + (text l.item).length < m.offset := by
  have hfrom : ∀ (xs : List ι) (offset number : Nat), ∀ l ∈ layout text offset number xs,
      offset ≤ l.offset := by
    intro xs
    induction xs with
    | nil => exact fun _ _ l hl => absurd hl List.not_mem_nil
    | cons x xs ih =>
      intro offset number l hl
      rcases List.mem_cons.1 hl with rfl | hl
      · exact Nat.le_refl offset
      · have := ih _ _ l hl
        omega
  induction xs generalizing offset number with
  | nil => exact List.Pairwise.nil
  | cons x xs ih => exact List.pairwise_cons.2 ⟨fun m hm => hfrom xs _ _ m hm, ih _ _⟩

end Layout

namespace Cursor

/-- Whether a place is the start of a line. -/
def AtLineStart (s : Cursor) : Prop := ∀ c ∈ s.before, c = '\n'

/-- Whether a place is the end of a line. -/
def AtLineEnd (s : Cursor) : Prop := ∀ c ∈ s.rest.head?, c = '\n'

variable {s t u : Cursor} {w : List Char} {c : Char}

/-- Every place but the first one lies behind the next one. -/
theorem Passes.eq_or_exists_of_next? (h : s.Passes w u) (hnext : s.next? = some (c, t)) :
    u = s ∨ ∃ v, w = c :: v ∧ t.Passes v u := by
  rcases w with _ | ⟨d, v⟩
  · exact .inl (passes_nil_iff.1 h)
  · obtain ⟨t', hst, htu⟩ := passes_append_iff.1 (show s.Passes ([d] ++ v) u from h)
    obtain ⟨rfl, rfl⟩ := Prod.mk.inj (Option.some.inj (hnext.symm.trans (next?_eq_some_iff.2 hst)))
    exact .inr ⟨v, rfl, htu⟩

/-- No place lies behind the end of a text. -/
theorem Passes.eq_of_next?_eq_none (h : s.Passes w u) (hnext : s.next? = none) : u = s := by
  rcases w with _ | ⟨d, v⟩
  · exact passes_nil_iff.1 h
  · obtain ⟨t, hst, -⟩ := passes_append_iff.1 (show s.Passes ([d] ++ v) u from h)
    rw [next?_eq_some_iff.2 hst] at hnext
    cases hnext

end Cursor

namespace Pattern

variable {p : Pattern} {s t : Cursor} {w : List Char}

/-- A place starts a match exactly if the pattern leads somewhere from there. -/
theorem matchAt?_eq_none_iff :
    p.matchAt? s = none ↔ ∀ t, ¬p.Reaches { s with captured := [] } t := by
  rw [matchAt?, ← Option.not_isSome_iff_eq_none, isSome_run_iff]
  simp only [Option.isSome_some, and_true, not_exists]

theorem reaches_of_matchAt? (h : p.matchAt? s = some t) :
    p.Reaches { s with captured := [] } t := by
  obtain ⟨u, hu, hut⟩ := run_eq_some h
  exact Option.some.inj hut ▸ hu

/-- Where a pattern leads to one place only, the match ends there. -/
theorem matchAt?_of_unique (h : p.Reaches { s with captured := [] } t)
    (hunique : ∀ u, p.Reaches { s with captured := [] } u → u = t) : p.matchAt? s = some t := by
  have hsome : (p.matchAt? s).isSome := isSome_run h rfl
  obtain ⟨u, hu⟩ := Option.isSome_iff_exists.1 hsome
  exact hu.trans (congrArg some (hunique u (reaches_of_matchAt? hu)))

/-- A pattern never leads back. -/
theorem left_le_of_reaches (h : p.Reaches s t) : t.left ≤ s.left := by
  have hrepeat : ∀ {R : Cursor → Cursor → Prop} {s t : Cursor},
      Relation.ReflTransGen (fun u v => R u v ∧ v.left < u.left) s t → t.left ≤ s.left := by
    intro R s t h
    induction h with
    | refl => exact Nat.le_refl _
    | tail _ hstep ih => exact Nat.le_trans (Nat.le_of_lt hstep.2) ih
  induction p generalizing s t with
  | char test =>
    obtain ⟨c, hnext, -⟩ := h
    exact Nat.le_of_lt (Cursor.left_lt_of_next? hnext)
  | nothing => exact Nat.le_of_eq (congrArg Cursor.left h)
  | seq a b iha ihb =>
    obtain ⟨u, hu, ht⟩ := h
    exact Nat.le_trans (ihb ht) (iha hu)
  | orElse a b iha ihb =>
    rcases h with h | h
    · exact iha h
    · exact ihb h
  | many a => exact hrepeat h
  | fewest a => exact hrepeat h
  | capture n a ih =>
    obtain ⟨u, hu, rfl⟩ := h
    exact (ih hu : u.left ≤ s.left)
  | place test => exact Nat.le_of_eq (congrArg Cursor.left h.1)

/-- Whether a pattern leads over no empty text. -/
def Advances (p : Pattern) : Prop := ∀ s t, p.Reaches s t → t.left < s.left

theorem Advances.left_lt (hp : p.Advances) (h : p.matchAt? s = some t) : t.left < s.left :=
  hp { s with captured := [] } t (reaches_of_matchAt? h)

section Step

theorem searchFrom_of_matchAt? (h : p.matchAt? s = some t) :
    p.searchFrom s = some ⟨s.offset, t⟩ := by
  rw [searchFrom, h]

theorem searchFrom_of_next? {c : Char} (h : p.matchAt? s = none) (hnext : s.next? = some (c, t)) :
    p.searchFrom s = p.searchFrom t := by
  rw [searchFrom, h]
  dsimp only
  split
  · rename_i hnone
    rw [hnone] at hnext
    cases hnext
  · rename_i hsome
    rw [hsome] at hnext
    cases hnext
    rfl

theorem searchFrom_of_end (h : p.matchAt? s = none) (hnext : s.next? = none) :
    p.searchFrom s = none := by
  rw [searchFrom, h]
  dsimp only
  split
  · rfl
  · rename_i hsome
    rw [hsome] at hnext
    cases hnext

/-- **What is found is the match that starts first.** If none is found, none starts anywhere. -/
theorem searchFrom_spec (p : Pattern) (s : Cursor) :
    match p.searchFrom s with
    | some f => ∃ v t, s.Passes v t ∧ f.start = t.offset ∧ p.matchAt? t = some f.stop ∧
        ∀ w u, w.length < v.length → s.Passes w u → p.matchAt? u = none
    | none => ∀ w u, s.Passes w u → p.matchAt? u = none := by
  induction hn : s.left using Nat.strong_induction_on generalizing s with
  | _ n ih =>
    cases hm : p.matchAt? s with
    | some t =>
      rw [searchFrom_of_matchAt? hm]
      exact ⟨[], s, Cursor.passes_nil_iff.2 rfl, rfl, hm,
        fun w u hw => absurd hw (Nat.not_lt_zero _)⟩
    | none =>
      cases hnext : s.next? with
      | none =>
        rw [searchFrom_of_end hm hnext]
        exact fun w u hpass => hpass.eq_of_next?_eq_none hnext ▸ hm
      | some next =>
        obtain ⟨c, t⟩ := next
        have hrest := ih t.left (hn ▸ Cursor.left_lt_of_next? hnext) t rfl
        rw [searchFrom_of_next? hm hnext]
        cases hf : p.searchFrom t with
        | some f =>
          rw [hf] at hrest
          obtain ⟨v, t', hpass, hstart, hmatch, hno⟩ := hrest
          refine ⟨c :: v, t', (Cursor.next?_eq_some_iff.1 hnext).append hpass, hstart, hmatch,
            fun w u hw hwu => ?_⟩
          rcases hwu.eq_or_exists_of_next? hnext with rfl | ⟨w, rfl, htu⟩
          · exact hm
          · exact hno w u (Nat.lt_of_succ_lt_succ hw) htu
        | none =>
          rw [hf] at hrest
          intro w u hwu
          rcases hwu.eq_or_exists_of_next? hnext with rfl | ⟨w, rfl, htu⟩
          · exact hm
          · exact hrest w u htu

/-- A match that is found ends before the end of what is left. -/
theorem Advances.left_lt_of_searchFrom (hp : p.Advances) {f : Found} (h : p.searchFrom s = some f) :
    f.stop.left < s.left := by
  induction hn : s.left using Nat.strong_induction_on generalizing s with
  | _ n ih =>
    cases hm : p.matchAt? s with
    | some t =>
      rw [searchFrom_of_matchAt? hm] at h
      cases h
      exact hn ▸ hp.left_lt hm
    | none =>
      cases hnext : s.next? with
      | none =>
        rw [searchFrom_of_end hm hnext] at h
        cases h
      | some next =>
        have hlt := hn ▸ Cursor.left_lt_of_next? hnext
        rw [searchFrom_of_next? hm hnext] at h
        exact Nat.lt_trans (ih next.2.left hlt h rfl) hlt

theorem findFrom_of_searchFrom_eq_none (h : p.searchFrom s = none) :
    p.findFrom s = [] := by rw [findFrom, h]

theorem findFrom_of_searchFrom (hp : p.Advances) {f : Found} (h : p.searchFrom s = some f) :
    p.findFrom s = f :: p.findFrom f.stop := by
  rw [findFrom, h]
  exact if_pos (hp.left_lt_of_searchFrom h)

/-- **A match that starts at a place** is found, and the search goes on where it ends. -/
theorem findFrom_of_matchAt? (hp : p.Advances) (h : p.matchAt? s = some t) :
    p.findFrom s = ⟨s.offset, t⟩ :: p.findFrom t :=
  findFrom_of_searchFrom hp (searchFrom_of_matchAt? h)

/-- **Where no match starts** the search goes on at the next place. -/
theorem findFrom_of_next? (hp : p.Advances) {c : Char} (h : p.matchAt? s = none)
    (hnext : s.next? = some (c, t)) : p.findFrom s = p.findFrom t := by
  have hsame := searchFrom_of_next? h hnext
  cases hf : p.searchFrom t with
  | none => rw [findFrom_of_searchFrom_eq_none (hsame.trans hf), findFrom_of_searchFrom_eq_none hf]
  | some f => rw [findFrom_of_searchFrom hp (hsame.trans hf), findFrom_of_searchFrom hp hf]

theorem findFrom_of_end (h : p.matchAt? s = none) (hend : s.rest = []) : p.findFrom s = [] := by
  refine findFrom_of_searchFrom_eq_none (searchFrom_of_end h ?_)
  rw [Option.eq_none_iff_forall_not_mem]
  intro next hnext
  have hrest := (Cursor.next?_eq_some_iff.1 hnext).rest_eq
  rw [hend] at hrest
  cases hrest

/-- The search goes on behind a text in which no match starts. -/
theorem findFrom_of_passes (hp : p.Advances) (h : s.Passes w t)
    (hno : ∀ v u, v <+: w → v ≠ w → s.Passes v u → p.matchAt? u = none) :
    p.findFrom s = p.findFrom t := by
  induction w generalizing s with
  | nil => rw [Cursor.passes_nil_iff.1 h]
  | cons c w ih =>
    obtain ⟨u, hsu, hut⟩ := Cursor.passes_append_iff.1 (show s.Passes ([c] ++ w) t from h)
    have hfirst : p.matchAt? s = none :=
      hno [] s (List.nil_prefix) (List.cons_ne_nil c w).symm (Cursor.passes_nil_iff.2 rfl)
    rw [findFrom_of_next? hp hfirst (Cursor.next?_eq_some_iff.2 hsu)]
    refine ih hut fun v x hv hne hux =>
      hno (c :: v) x ?_ (fun he => hne (List.cons.inj he).2) (hsu.append hux)
    exact List.prefix_cons_inj c |>.2 hv

/-- What was captured before does not matter for a search. -/
theorem findFrom_congr (hp : p.Advances) (hbefore : s.before = t.before) (hrest : s.rest = t.rest)
    (hoffset : s.offset = t.offset) : p.findFrom s = p.findFrom t := by
  induction hn : s.left using Nat.strong_induction_on generalizing s t with
  | _ n ih =>
    have hmatch : p.matchAt? s = p.matchAt? t := by
      have hsame : ({ s with captured := [] } : Cursor) = { t with captured := [] } :=
        Cursor.ext_of_rest hbefore hrest hoffset rfl
      rw [matchAt?, hsame, matchAt?]
    cases hm : p.matchAt? s with
    | some u => rw [findFrom_of_matchAt? hp hm,
        findFrom_of_matchAt? hp (hmatch.symm.trans hm), hoffset]
    | none =>
      have hm' := hmatch.symm.trans hm
      rcases hs : s.rest with _ | ⟨c, r⟩
      · rw [findFrom_of_end hm hs, findFrom_of_end hm' (hrest ▸ hs)]
      · obtain ⟨u, hu, hurest⟩ := Cursor.exists_passes (show s.rest = [c] ++ r from hs)
        obtain ⟨v, hv, hvrest⟩ := Cursor.exists_passes (show t.rest = [c] ++ r from hrest ▸ hs)
        have hnext := Cursor.next?_eq_some_iff.2 hu
        rw [findFrom_of_next? hp hm hnext, findFrom_of_next? hp hm' (Cursor.next?_eq_some_iff.2 hv)]
        refine ih u.left (hn ▸ Cursor.left_lt_of_next? hnext) ?_ (hurest.trans hvrest.symm) ?_ rfl
        · rw [hu.before_eq, hv.before_eq, hbefore]
        · rw [hu.offset_eq, hv.offset_eq, hoffset]

end Step

/-- A match as far as a text shows it: where it starts and what it captured. -/
structure Hit where
  offset : Nat
  captured : List (Nat × List Char)

/-- The match further on in a text. -/
def Hit.shift (n : Nat) (h : Hit) : Hit := { h with offset := n + h.offset }

/-- The matches from a place on. -/
def hits (p : Pattern) (s : Cursor) : List Hit :=
  (p.findFrom s).map fun f => ⟨f.start, f.stop.captured⟩

/-- Whether no match starts at the end of a line. -/
def SkipsLineEnds (p : Pattern) : Prop := ∀ s : Cursor, s.AtLineEnd → p.matchAt? s = none

/-- Whether some matches are those on a line, whatever stands on the lines around it. -/
def FindsOn (p : Pattern) (line : List Char) (found : List Hit) : Prop :=
  ∀ s t : Cursor, s.AtLineStart → s.Passes line t → t.AtLineEnd →
    p.hits s = found.map (·.shift s.offset) ++ p.hits t

theorem findsOn_empty : p.FindsOn [] [] := by
  intro s t _ hpass _
  rw [Cursor.passes_nil_iff.1 hpass]
  rfl

/-- On a line where no match starts anywhere, none is found. -/
theorem findsOn_nil (hp : p.Advances) {line : List Char}
    (hno : ∀ s t : Cursor, s.AtLineStart → s.Passes line t → t.AtLineEnd →
      ∀ v u, v <+: line → v ≠ line → s.Passes v u → p.matchAt? u = none) : p.FindsOn line [] := by
  intro s t hstart hpass hend
  rw [hits, findFrom_of_passes hp hpass (hno s t hstart hpass hend)]
  rfl

/-- On a line where a match starts behind a text and no other one starts before or behind
it, this match is found. -/
theorem findsOn_singleton (hp : p.Advances) {v w z : List Char} {captured : List (Nat × List Char)}
    (hmatch : ∀ s t u : Cursor, s.AtLineStart → s.Passes (v ++ (w ++ z)) t → t.AtLineEnd →
        s.Passes v u →
      ∃ m, p.matchAt? u = some { m with captured } ∧ u.Passes w m)
    (hno : ∀ s t : Cursor, s.AtLineStart → s.Passes (v ++ (w ++ z)) t → t.AtLineEnd →
      ∀ x u, x <+: v ++ (w ++ z) → x ≠ v ++ (w ++ z) → x.length < v.length ∨
      v.length + w.length ≤ x.length →
        s.Passes x u → p.matchAt? u = none) :
    p.FindsOn (v ++ (w ++ z)) [⟨v.length, captured⟩] := by
  intro s t hstart hpass hend
  have hnone := hno s t hstart hpass hend
  obtain ⟨u, hsu, hut⟩ := Cursor.passes_append_iff.1 hpass
  obtain ⟨m, hfound, hum⟩ := hmatch s t u hstart hpass hend hsu
  obtain ⟨m', hum', hmt⟩ := Cursor.passes_append_iff.1 hut
  obtain rfl := hum.unique hum'
  -- The place where the search goes on remembers what was captured, which makes no difference.
  have hlater : p.findFrom { m with captured } = p.findFrom t := by
    rw [findFrom_congr hp (s := { m with captured }) (t := m) rfl rfl rfl]
    refine findFrom_of_passes hp hmt fun x y hx hne hmy =>
      hnone (v ++ (w ++ x)) y ?_ ?_ ?_ (hsu.append (hum.append hmy))
    · exact (List.prefix_append_right_inj v).2 ((List.prefix_append_right_inj w).2 hx)
    · exact fun he => hne (List.append_cancel_left (List.append_cancel_left he))
    · rw [List.length_append, List.length_append]
      omega
  rw [hits, findFrom_of_passes hp hsu, findFrom_of_matchAt? hp hfound, hlater, List.map_cons,
    hsu.offset_eq]
  · rfl
  · intro x y hx hne hsy
    have hlt : x.length < v.length := by
      have := hx.length_le
      have := mt hx.eq_of_length hne
      omega
    refine hnone x y (hx.trans (List.prefix_append ..)) (fun he => ?_) (.inl hlt) hsy
    rw [he, List.length_append] at hlt
    omega

/-- Whether a pattern matches only from the start of a line on. -/
def Anchored (p : Pattern) : Prop := ∀ s t, p.Reaches s t → s.AtLineStart

theorem Anchored.matchAt?_eq_none (hp : p.Anchored) {line x : List Char} {u : Cursor}
    (hline : '\n' ∉ line) (hx : x <+: line) (hne : x ≠ []) (hplace : s.Passes x u) :
    p.matchAt? u = none := by
  refine matchAt?_eq_none_iff.2 fun t ht => ?_
  have hlast : u.before = some (x.getLast hne) := by
    rw [hplace.before_eq, List.getLast?_eq_some_getLast hne, Option.some_or]
  have hfeed : x.getLast hne = '\n' := hp _ t ht _ hlast
  exact hline (hx.subset (hfeed ▸ List.getLast_mem hne))

/-- An anchored pattern that does not match from the start of a line on is not found on it. -/
theorem findsOn_nil_of_anchored (hadvances : p.Advances) (hp : p.Anchored) {line : List Char}
    (hline : '\n' ∉ line) (hno : ∀ s t : Cursor, s.AtLineStart → s.Passes line t → t.AtLineEnd →
        p.matchAt? s = none) : p.FindsOn line [] := by
  refine findsOn_nil hadvances fun s t hstart hpass hend x u hx _ hplace => ?_
  rcases eq_or_ne x [] with rfl | hne
  · exact Cursor.passes_nil_iff.1 hplace ▸ hno s t hstart hpass hend
  · exact hp.matchAt?_eq_none hline hx hne hplace

/-- An anchored pattern that matches from the start of a line on is found there and
nowhere else on the line. -/
theorem findsOn_singleton_of_anchored (hadvances : p.Advances) (hp : p.Anchored) {w z : List Char}
    {captured : List (Nat × List Char)} (hline : '\n' ∉ w ++ z) (hw : w ≠ [])
    (hmatch : ∀ s t : Cursor, s.AtLineStart → s.Passes (w ++ z) t → t.AtLineEnd →
      ∃ m, p.matchAt? s = some { m with captured } ∧ s.Passes w m) :
    p.FindsOn (w ++ z) [⟨0, captured⟩] := by
  refine findsOn_singleton (v := []) hadvances (fun s t u hstart hpass hend hplace => ?_)
    fun s t _ _ _ x u hx _ hlength hplace => ?_
  · exact Cursor.passes_nil_iff.1 hplace ▸ hmatch s t hstart hpass hend
  · refine hp.matchAt?_eq_none hline hx (fun hnil => ?_) hplace
    have := List.length_pos_iff.2 hw
    rw [hnil] at hlength
    simp only [List.length_nil] at hlength
    omega

/-- **The matches in a text of lines** are those on its lines. -/
theorem hits_joinWith {ι : Type} (hp : p.Advances) (hend : p.SkipsLineEnds) {text : ι → List Char}
    {found : ι → List Hit} {xs : List ι} (hfound : ∀ x ∈ xs, p.FindsOn (text x) (found x))
    (hstart : s.AtLineStart) (hrest : s.rest = Path.joinWith '\n' (xs.map text)) (number : Nat) :
    p.hits s = (layout text s.offset number xs).flatMap fun l =>
      (found l.item).map (·.shift l.offset) := by
  have hnone : ∀ t : Cursor, t.rest = [] → p.hits t = [] := by
    intro t ht
    have hline : t.AtLineEnd := by
      rw [Cursor.AtLineEnd, ht]
      exact fun c hc => nomatch hc
    rw [hits, findFrom_of_end (hend t hline) ht, List.map_nil]
  induction xs generalizing s number with
  | nil => exact hnone s hrest
  | cons x xs ih =>
    rw [layout, List.flatMap_cons]
    rcases eq_or_ne xs [] with rfl | hne
    · obtain ⟨t, hpass, htail⟩ := Cursor.exists_passes (hrest.trans (List.append_nil (text x)).symm)
      have hline : t.AtLineEnd := by
        rw [Cursor.AtLineEnd, htail]
        exact fun c hc => nomatch hc
      rw [hfound x (List.mem_cons_self ..) s t hstart hpass hline, hnone t htail]
      rfl
    · have htext := hrest.trans (Path.joinWith_cons (text x) (mt List.map_eq_nil_iff.1 hne))
      obtain ⟨t, hpass, htail⟩ := Cursor.exists_passes htext
      obtain ⟨u, hfeed, hnext⟩ := Cursor.exists_passes
        (show t.rest = ['\n'] ++ Path.joinWith '\n' (xs.map text) from htail)
      have hline : t.AtLineEnd := by
        rw [Cursor.AtLineEnd, htail]
        exact fun c hc => (Option.some.inj hc).symm
      have hbefore : u.AtLineStart := by
        rw [Cursor.AtLineStart, hfeed.before_eq]
        exact fun c hc => (Option.some.inj hc).symm
      have hskip : p.hits t = p.hits u := by
        rw [hits, hits, findFrom_of_next? hp (hend t hline) (Cursor.next?_eq_some_iff.2 hfeed)]
      rw [hfound x (List.mem_cons_self ..) s t hstart hpass hline, hskip,
        ih (fun y hy => hfound y (List.mem_cons_of_mem x hy)) hbefore hnext (number + 1),
        hfeed.offset_eq, hpass.offset_eq]
      rfl

end Pattern
end CodeSurvey
