/-
# The stem that a test shares with its subject

A word such as `_test` or `Test` at the end of a stem marks what a file is for (`Coupling.IsMark`).
No such word ends with another one, so the last one is always the same and can be taken off in one
way only (`Coupling.Extends.left_unique`).

The marks at the end of a stem are found by a search for the first place from which marks lead to
the end. The stem that is left is the one that the stem extends by marks and that ends with no mark
(`Coupling.dropSuffixes_eq_iff`): marks are taken off one by one as long as there is one. So another
mark at the end of a stem, whichever it is and whatever marks stand before it, does not change what
is left, and a test shares the stem of its subject (`Coupling.namingStem_shared`).
-/

import CodeSurvey.Coupling.Structure
import CodeSurvey.Proofs.Pattern.Search
import CodeSurvey.Proofs.Text.Case

namespace CodeSurvey
namespace Coupling

open Text Pattern Relation

/-- The words that mark what a file is for. -/
def markWords : List String :=
  ["test", "tests", "spec", "component", "container", "style", "styles", "stories"]

/-- The same words with a capital. -/
def capitalMarkWords : List String :=
  ["Test", "Tests", "Spec", "Component", "Container", "Style", "Styles", "Stories"]

/-- Whether a text is a mark that may be taken off the end of a stem, given the character before it:
a word with a separator, or a word with a capital behind a small letter or a digit. -/
inductive IsMark (before : Option Char) : List Char → Prop
  | separated {c : Char} {w : String} (hc : c = '.' ∨ c = '_' ∨ c = '-') (hw : w ∈ markWords) :
      IsMark before (c :: w.toList)
  | capital {w : String} (hbefore : before.any fun c => isLowerAscii c || isDigitAscii c)
      (hw : w ∈ capitalMarkWords) :
    IsMark before w.toList

/-- Whether a stem is another one with one more mark at its end. -/
def Extends (s s' : List Char) : Prop := ∃ w, IsMark s.getLast? w ∧ s' = s ++ w

variable {before : Option Char} {base cs s s' v w : List Char} {t u : Cursor}

/-- A mark is a character that is no small letter, and small letters behind it: three of them, or
more at the start of a text. -/
theorem IsMark.exists_cons (h : IsMark before w) : ∃ c v, w = c :: v ∧ isLowerAscii c = false ∧
    (∀ x ∈ v, isLowerAscii x = true) ∧ 2 < v.length ∧ (before = none → 3 < v.length) := by
  have hwords : ∀ w ∈ markWords, w.toList.all isLowerAscii = true ∧ 3 < w.toList.length := by decide
  have hcapitals : ∀ w ∈ capitalMarkWords, w.toList.head?.any isLowerAscii = false ∧
      w.toList.tail.all isLowerAscii = true ∧ 2 < w.toList.tail.length := by decide
  cases h with
  | separated hc hw =>
    obtain ⟨hsmall, hlength⟩ := hwords _ hw
    refine ⟨_, _, rfl, ?_, List.all_eq_true.1 hsmall, Nat.lt_of_succ_lt hlength, fun _ => hlength⟩
    rcases hc with rfl | rfl | rfl <;> rfl
  | @capital w hbefore hw =>
    obtain ⟨hhead, htail, hlength⟩ := hcapitals w hw
    have hnone : before = none → 3 < w.toList.tail.length := fun hnone => by
      rw [hnone] at hbefore
      cases hbefore
    rcases hcs : w.toList with _ | ⟨c, v⟩
    · rw [hcs] at hlength
      cases hlength
    · rw [hcs] at hhead htail hlength hnone
      exact ⟨c, v, rfl, hhead, List.all_eq_true.1 htail, hlength, hnone⟩

theorem IsMark.ne_nil (h : IsMark before w) : w ≠ [] := by
  obtain ⟨c, v, rfl, -⟩ := h.exists_cons
  exact List.cons_ne_nil c v

/-- **The last mark of a stem** can be taken off in one way. -/
theorem Extends.left_unique (h : Extends s cs) (h' : Extends s' cs) : s = s' := by
  obtain ⟨_, hmark, rfl⟩ := h
  obtain ⟨_, hmark', heq⟩ := h'
  obtain ⟨c, v, rfl, hc, hv, -, -⟩ := hmark.exists_cons
  obtain ⟨c', v', rfl, hc', hv', -, -⟩ := hmark'.exists_cons
  -- Read from the end, both stems go on behind the first character that is no small letter.
  have hreverse : v.reverse ++ c :: s.reverse = v'.reverse ++ c' :: s'.reverse := by
    simpa using congrArg List.reverse heq
  have hsame := Text.append_cons_inj (p := fun x => !isLowerAscii x) (fun x hx =>
    by simp [hv x (List.mem_reverse.1 hx)])
    (fun x hx => by simp [hv' x (List.mem_reverse.1 hx)]) (by simp [hc]) (by simp [hc']) hreverse
  exact List.reverse_inj.1 hsame.2.2

/-- A stem that ends with a mark has five characters at least. -/
theorem Extends.length_gt (h : Extends s s') : 4 < s'.length := by
  obtain ⟨w, hmark, rfl⟩ := h
  obtain ⟨c, v, rfl, -, -, hlength, hstart⟩ := hmark.exists_cons
  rcases s with _ | ⟨d, s⟩
  · exact Nat.succ_lt_succ (hstart rfl)
  · simp only [List.cons_append, List.length_cons, List.length_append]
    omega

section Reaching

variable {xs ys : List String} {x : String}

theorem reaches_plural_iff :
    (seq (word x) (optional (one 's'))).Reaches t u ↔ t.Passes x.toList u ∨
      t.Passes (x ++ "s").toList u := by
  rw [((spells_word x).seq (spells_one 's').optional) t u, String.toList_append]
  constructor
  · rintro ⟨_, hmem, hpass⟩
    obtain ⟨_, rfl, _, rfl | rfl, rfl⟩ := Language.mem_mul.1 hmem
    · exact .inr hpass
    · exact .inl (List.append_nil x.toList ▸ hpass)
  · rintro (hpass | hpass)
    · exact ⟨_, Language.mem_mul.2 ⟨x.toList, rfl, [], .inr rfl, List.append_nil _⟩, hpass⟩
    · exact ⟨_, Language.mem_mul.2 ⟨x.toList, rfl, ['s'], .inl rfl, rfl⟩, hpass⟩

/-- Words of which one may have a plural lead over themselves. -/
theorem reaches_words_iff :
    (any (xs.map word ++ seq (word x) (optional (one 's')) :: ys.map word)).Reaches t u ↔
      ∃ w ∈ xs ++ x :: (x ++ "s") :: ys, t.Passes w.toList u := by
  simp only [reaches_any_iff, List.mem_append, List.mem_cons, or_and_right, exists_or,
    exists_eq_left, List.mem_map, exists_exists_and_eq_and, reaches_word_iff,
    reaches_plural_iff, or_assoc]

theorem reaches_markWords_iff :
    (any [word "test", word "tests", word "spec", word "component", word "container",
    seq (word "style") (optional (one 's')), word "stories"]).Reaches t u ↔ ∃ w ∈ markWords,
      t.Passes w.toList u :=
  @reaches_words_iff t u ["test", "tests", "spec", "component", "container"] ["stories"] "style"

theorem reaches_capitalMarkWords_iff :
    (any [word "Test", word "Tests", word "Spec", word "Component", word "Container",
    seq (word "Style") (optional (one 's')), word "Stories"]).Reaches t u ↔ ∃ w ∈ capitalMarkWords,
      t.Passes w.toList u :=
  @reaches_words_iff t u ["Test", "Tests", "Spec", "Component", "Container"] ["Stories"] "Style"

/-- **A mark is what the pattern for one leads over.** -/
theorem reaches_mark_iff :
    (orElse separatedSuffix camelSuffix).Reaches t u ↔ ∃ w, IsMark t.before w ∧ t.Passes w u := by
  constructor
  · rintro (⟨v, ⟨c, hnext, hc⟩, hvu⟩ | ⟨_, ⟨rfl, hbefore⟩, hpass⟩)
    · obtain ⟨w, hw, hpass⟩ := reaches_markWords_iff.1 hvu
      refine ⟨_, .separated (c := c) ?_ hw, (Cursor.next?_eq_some_iff.1 hnext).append hpass⟩
      simpa [or_assoc] using hc
    · obtain ⟨w, hw, hpass⟩ := reaches_capitalMarkWords_iff.1 hpass
      exact ⟨_, .capital hbefore hw, hpass⟩
  · rintro ⟨_, ⟨hc, hw⟩ | ⟨hbefore, hw⟩, hpass⟩
    · obtain ⟨v, htv, hvu⟩ := Cursor.passes_append_iff.1 (show t.Passes ([_] ++ _) u from hpass)
      refine .inl ⟨v, ⟨_, Cursor.next?_eq_some_iff.2 htv, ?_⟩, reaches_markWords_iff.2 ⟨_, hw, hvu⟩⟩
      simpa [or_assoc] using hc
    · exact .inr ⟨t, ⟨rfl, hbefore⟩, reaches_capitalMarkWords_iff.2 ⟨_, hw, hpass⟩⟩

end Reaching

section Dropping

theorem Extends.isPrefix (h : Extends s s') : s <+: s' := by
  obtain ⟨w, -, rfl⟩ := h
  exact List.prefix_append s w

theorem Extends.length_lt (h : Extends s s') : s.length < s'.length := by
  obtain ⟨w, hmark, rfl⟩ := h
  have := List.length_pos_iff.2 hmark.ne_nil
  rw [List.length_append]
  omega

theorem isPrefix_of_extends (h : ReflTransGen Extends s s') : s <+: s' := by
  induction h with
  | refl => exact List.prefix_refl s
  | tail _ hstep ih => exact ih.trans hstep.isPrefix

/-- From a place in a text, one mark leads to the place behind it. -/
theorem reaches_mark_iff_extends (hpass : (Cursor.start cs).Passes v t) :
    (orElse separatedSuffix camelSuffix).Reaches t u ↔ ∃ v', Extends v v' ∧
      (Cursor.start cs).Passes v' u := by
  have hbefore : t.before = v.getLast? := hpass.before_eq.trans (Option.or_none ..)
  rw [reaches_mark_iff, hbefore]
  constructor
  · rintro ⟨w, hw, htu⟩
    exact ⟨v ++ w, ⟨w, hw, rfl⟩, hpass.append htu⟩
  · rintro ⟨_, ⟨w, hw, rfl⟩, hsu⟩
    obtain ⟨t', hst', htu⟩ := Cursor.passes_append_iff.1 hsu
    exact ⟨w, hw, hpass.unique hst' ▸ htu⟩

/-- From a place in a text, marks lead to the places behind them. -/
theorem reaches_marks_iff (hpass : (Cursor.start cs).Passes v t) :
    (many (orElse separatedSuffix camelSuffix)).Reaches t u ↔
      ∃ v', ReflTransGen Extends v v' ∧ (Cursor.start cs).Passes v' u := by
  constructor
  · intro h
    induction h with
    | refl => exact ⟨v, .refl, hpass⟩
    | tail _ hstep ih =>
      obtain ⟨v', hv', hpass'⟩ := ih
      obtain ⟨v'', hext, hpass''⟩ := (reaches_mark_iff_extends hpass').1 hstep.1
      exact ⟨v'', hv'.tail hext, hpass''⟩
  · rintro ⟨v', hv', hsu⟩
    induction hv' generalizing u with
    | refl => exact hpass.unique hsu ▸ .refl
    | tail _ hext ih =>
      obtain ⟨w, hw, rfl⟩ := id hext
      obtain ⟨t', hst', htu⟩ := Cursor.passes_append_iff.1 hsu
      have hlt : u.left < t'.left := by
        have := List.length_pos_iff.2 hw.ne_nil
        rw [htu.left_eq]
        omega
      exact .tail (ih hst') ⟨(reaches_mark_iff_extends hst').2 ⟨_, hext, hsu⟩, hlt⟩

/-- **Marks up to the end** lead from a place in a text exactly if the text extends by marks what
stands before the place. -/
theorem reaches_stemSuffixes_iff (hline : '\n' ∉ cs) (hpass : (Cursor.start cs).Passes v t) :
    stemSuffixes.Reaches t u ↔ TransGen Extends v cs ∧ (Cursor.start cs).Passes cs u := by
  have hend : ∀ {v'}, (Cursor.start cs).Passes v' u →
      (u.rest = [] ∨ u.rest = ['\n'] ↔ v' = cs) := by
    intro v' hsu
    have hcs : cs = v' ++ u.rest := hsu.rest_eq
    constructor
    · rintro (hnil | hfeed)
      · rw [hcs, hnil, List.append_nil]
      · exact absurd (hcs ▸ hfeed ▸ List.mem_append_right v' (List.mem_singleton_self '\n')) hline
    · rintro rfl
      exact .inl (List.self_eq_append_right.1 hcs)
  rw [TransGen.head'_iff]
  constructor
  · rintro ⟨_, ⟨t', hmark, hmarks⟩, hu⟩
    obtain ⟨rfl, hrest⟩ := reaches_textEnd_iff.1 hu
    obtain ⟨v', hext, hst'⟩ := (reaches_mark_iff_extends hpass).1 hmark
    obtain ⟨v'', hexts, hsu⟩ := (reaches_marks_iff hst').1 hmarks
    obtain rfl := (hend hsu).1 hrest
    exact ⟨⟨v', hext, hexts⟩, hsu⟩
  · rintro ⟨⟨v', hext, hexts⟩, hsu⟩
    obtain ⟨w, hw⟩ := isPrefix_of_extends hexts
    obtain ⟨t', hst', -⟩ :=
      Cursor.exists_passes (show (Cursor.start cs).rest = v' ++ w from hw.symm)
    exact ⟨u, ⟨t', (reaches_mark_iff_extends hpass).2 ⟨v', hext, hst'⟩,
      (reaches_marks_iff hst').2 ⟨cs, hexts, hsu⟩⟩, reaches_textEnd_iff.2 ⟨rfl, (hend hsu).2 rfl⟩⟩

/-- A match starts at a place exactly if marks lead from there to the end. -/
theorem matchAt?_stemSuffixes_iff (hline : '\n' ∉ cs) (hpass : (Cursor.start cs).Passes v t) :
    stemSuffixes.matchAt? t = none ↔ ¬TransGen Extends v cs := by
  have hplace : (Cursor.start cs).Passes v { t with captured := [] } :=
    ⟨hpass.rest_eq, hpass.before_eq, hpass.offset_eq, rfl⟩
  rw [matchAt?_eq_none_iff]
  simp only [reaches_stemSuffixes_iff hline hplace]
  constructor
  · intro hno hmarks
    obtain ⟨u, hsu, -⟩ := Cursor.exists_passes (List.append_nil (Cursor.start cs).rest).symm
    exact hno u ⟨hmarks, hsu⟩
  · exact fun hno u hu => hno hu.1

/-- A match ends at the end of the text. -/
theorem rest_of_matchAt?_stemSuffixes (hline : '\n' ∉ cs) (hpass : (Cursor.start cs).Passes v t)
    (h : stemSuffixes.matchAt? t = some u) : TransGen Extends v cs ∧ u.rest = [] := by
  have hplace : (Cursor.start cs).Passes v { t with captured := [] } :=
    ⟨hpass.rest_eq, hpass.before_eq, hpass.offset_eq, rfl⟩
  obtain ⟨hmarks, hsu⟩ := (reaches_stemSuffixes_iff hline hplace).1 (reaches_of_matchAt? h)
  exact ⟨hmarks, List.self_eq_append_right.1 hsu.rest_eq⟩

/-- What is left of a stem is extended by marks to the stem, and ends with no mark. -/
theorem dropSuffixes_spec (hline : '\n' ∉ cs) :
    ReflTransGen Extends (dropSuffixes cs) cs ∧ ∀ s, ¬Extends s (dropSuffixes cs) := by
  have hsearch := searchFrom_spec stemSuffixes (Cursor.start cs)
  unfold dropSuffixes search
  cases hfound : stemSuffixes.searchFrom (Cursor.start cs) with
  | none =>
    rw [hfound] at hsearch
    refine ⟨.refl, fun s hext => ?_⟩
    obtain ⟨w, hw⟩ := hext.isPrefix
    obtain ⟨t, hst, -⟩ := Cursor.exists_passes (show (Cursor.start cs).rest = s ++ w from hw.symm)
    exact (matchAt?_stemSuffixes_iff hline hst).1 (hsearch s t hst) (.single hext)
  | some f =>
    rw [hfound] at hsearch
    obtain ⟨v, t, hst, hstart, hmatch, hno⟩ := hsearch
    obtain ⟨hmarks, hrest⟩ := rest_of_matchAt?_stemSuffixes hline hst hmatch
    have hoffset : f.start = v.length := hstart.trans (hst.offset_eq.trans (Nat.zero_add _))
    obtain ⟨tail, rfl⟩ := isPrefix_of_extends hmarks.to_reflTransGen
    dsimp only
    rw [hoffset, hrest, List.append_nil, List.take_left]
    refine ⟨hmarks.to_reflTransGen, fun s hext => ?_⟩
    -- A mark at the end of what is left would let the match start before it.
    obtain ⟨w, rfl⟩ := hext.isPrefix
    obtain ⟨t', hst', -⟩ :=
      Cursor.exists_passes (show (Cursor.start (s ++ w ++ tail)).rest = s ++ (w ++ tail) from
      List.append_assoc ..)
    exact (matchAt?_stemSuffixes_iff hline hst').1 (hno s t' hext.length_lt hst')
      (.head hext hmarks)

/-- **What is left of a stem** is what it extends by marks and what ends with no mark. -/
theorem dropSuffixes_eq_iff (hline : '\n' ∉ cs) :
    dropSuffixes cs = base ↔ ReflTransGen Extends base cs ∧ ∀ s, ¬Extends s base := by
  obtain ⟨hmarks, hend⟩ := dropSuffixes_spec hline
  constructor
  · rintro rfl
    exact ⟨hmarks, hend⟩
  · rintro ⟨hmarks', hend'⟩
    -- Of two stems that the text extends, the one extends the other.
    have hunique : Relator.RightUnique (Function.swap Extends) := fun _ _ _ h h' => h.left_unique h'
    rcases ReflTransGen.total_of_right_unique hunique hmarks.swap hmarks'.swap with h | h
    · obtain heq | ⟨s, hs, -⟩ := h.cases_head
      · exact heq
      · exact absurd hs (hend s)
    · obtain heq | ⟨s, hs, -⟩ := h.cases_head
      · exact heq.symm
      · exact absurd hs (hend' s)

/-- **One more mark** does not change what is left. -/
theorem dropSuffixes_of_extends (hline : '\n' ∉ s') (h : Extends s s') :
    dropSuffixes s' = dropSuffixes s := by
  have hline' : '\n' ∉ s := fun hmem => hline (h.isPrefix.subset hmem)
  obtain ⟨hmarks, hend⟩ := dropSuffixes_spec hline'
  exact (dropSuffixes_eq_iff hline).2 ⟨hmarks.tail h, hend⟩

/-- A short stem holds no mark. -/
theorem dropSuffixes_of_length_le (hline : '\n' ∉ s) (h : s.length ≤ 4) : dropSuffixes s = s :=
  (dropSuffixes_eq_iff hline).2 ⟨.refl, fun _ hext => Nat.not_lt.2 h hext.length_gt⟩

end Dropping

section Naming

/-- A stem as it is told: not if it is short or general. -/
def toldStem (stem : List Char) : Option String :=
  if stem.length < shortestStem || generalStems.contains (String.ofList stem) then none
  else some (String.ofList stem)

variable {ext : List Char}

theorem beforeDot_append (hdot : '.' ∉ s) : beforeDot (s ++ '.' :: ext) = s := by
  have hs : ∀ c ∈ s, (c != '.') = true := fun c hc => bne_iff_ne.2 fun heq => hdot (heq ▸ hc)
  rw [beforeDot, List.takeWhile_append_of_pos hs, List.takeWhile_cons_of_neg (by decide),
    List.append_nil]

/-- The start `test_` is seen in any case, letter by letter. -/
theorem isPrefixOf_lower_iff :
    "test_".toList.isPrefixOf (lower s) = true ↔ "test_".toList <+: s.map Char.toLower := by
  have hascii : ∀ c ∈ "test_".toList, IsOfAscii c := by simp [IsOfAscii]
  rw [List.isPrefixOf_iff_prefix, prefix_lower_iff hascii]

/-- The stem of a name that does not start with `test_`. -/
theorem namingStem_of_not_test (hdot : '.' ∉ s) (htest : ¬"test_".toList <+: s.map Char.toLower) :
    namingStem (s ++ '.' :: ext) = toldStem (lower (dropSuffixes s)) := by
  rw [namingStem, beforeDot_append hdot, if_neg (mt isPrefixOf_lower_iff.1 htest), toldStem]

/-- The stem of a name that starts with `test_`. -/
theorem namingStem_of_test (hdot : '.' ∉ s) (htest : "test_".toList <+: s.map Char.toLower) :
    namingStem (s ++ '.' :: ext) = toldStem (lower (dropSuffixes (s.drop 5))) := by
  rw [namingStem, beforeDot_append hdot, if_pos (isPrefixOf_lower_iff.2 htest), toldStem]

/-- One more mark does not change the stem of a name, if the name does not
start with `test_` for it. -/
theorem namingStem_of_mark {ext' : List Char} (hw : IsMark s.getLast? w)
    (hplain : '.' ∉ w ∧ '\n' ∉ w) (htest : ¬"test_".toList <+: (s ++ w).map Char.toLower)
    (hdot : '.' ∉ s) (hline : '\n' ∉ s) :
    namingStem (s ++ w ++ '.' :: ext) = namingStem (s ++ '.' :: ext') := by
  have hdot' : '.' ∉ s ++ w := List.not_mem_append hdot hplain.1
  have hline' : '\n' ∉ s ++ w := List.not_mem_append hline hplain.2
  have htest' : ¬"test_".toList <+: s.map Char.toLower :=
    fun hstarts => htest (hstarts.trans ((List.prefix_append s w).map _))
  rw [namingStem_of_not_test hdot' htest, namingStem_of_not_test hdot htest',
    dropSuffixes_of_extends hline' ⟨w, hw, rfl⟩]

/-- A text that starts with `test_` only for what is put behind it ends within this word. -/
theorem exists_of_test_append (htest : ¬"test_".toList <+: s.map Char.toLower)
    (h : "test_".toList <+: (s ++ w).map Char.toLower) :
    ∃ q ∈ "test_".toList.tails, q ≠ [] ∧ q <+: w.map Char.toLower ∧
      s.map Char.toLower ++ q = "test_".toList := by
  rw [List.map_append] at h
  obtain ⟨q, hq⟩ := (List.prefix_or_prefix_of_prefix h (List.prefix_append ..)).resolve_left htest
  refine ⟨q, List.mem_tails _ _ |>.2 ⟨_, hq⟩, ?_, ?_, hq⟩
  · rintro rfl
    exact htest (by rw [← hq, List.append_nil])
  · rwa [← hq, List.prefix_append_right_inj] at h

/-- Of a name `test` in any case, what follows a start `test_` is that name. -/
theorem namingStem_test {ext' : List Char} (hdot : '.' ∉ s) (hline : '\n' ∉ s)
    (h : s.map Char.toLower = "test".toList) :
    namingStem (s ++ "_test".toList ++ '.' :: ext) = namingStem (s ++ '.' :: ext') := by
  have hlength : s.length = 4 := by
    rw [← List.length_map Char.toLower, h]
    rfl
  have hascii : ∀ c ∈ s, c.toNat < 128 := by
    have hword : ∀ c ∈ "test".toList, c.toNat < 128 := by simp
    intro c hc
    by_contra hbeyond
    have hmem : c.toLower ∈ "test".toList := h ▸ List.mem_map_of_mem hc
    rw [toLower_of_beyond (Nat.not_lt.1 hbeyond)] at hmem
    exact hbeyond (hword c hmem)
  have hdrop : (s ++ "_test".toList).drop 5 = "test".toList := by
    rw [List.drop_append, List.drop_eq_nil_of_le (by omega), hlength]
    rfl
  have hdot' : '.' ∉ s ++ "_test".toList := List.not_mem_append hdot (by decide)
  have htest' : "test_".toList <+: (s ++ "_test".toList).map Char.toLower := by
    rw [List.map_append, h]
    decide
  have htest : ¬"test_".toList <+: s.map Char.toLower := by
    rw [h]
    decide
  have hshort : lower (dropSuffixes "test".toList) = "test".toList := by
    rw [dropSuffixes_of_length_le (by decide) (by decide)]
    decide
  rw [namingStem_of_test hdot' htest', hdrop, hshort, namingStem_of_not_test hdot htest,
    dropSuffixes_of_length_le hline hlength.le, lower_eq_map hascii, h]

/-- With `test_` before it, a name has the stem of what follows. -/
theorem namingStem_behind_test (hdot : '.' ∉ s) :
    namingStem ("test_".toList ++ s ++ '.' :: ext) = toldStem (lower (dropSuffixes s)) := by
  have hstart : "test_".toList <+: ("test_".toList ++ s).map Char.toLower := by
    rw [List.map_append]
    exact List.prefix_append ..
  rw [namingStem_of_test (List.not_mem_append (by decide) hdot) hstart]
  rfl

/-- With `_test` behind it, a name has the same stem. -/
theorem namingStem_before_test {ext' : List Char} (hdot : '.' ∉ s) (hline : '\n' ∉ s)
    (htest : ¬"test_".toList <+: s.map Char.toLower) :
    namingStem (s ++ "_test".toList ++ '.' :: ext) = namingStem (s ++ '.' :: ext') := by
  by_cases htest' : "test_".toList <+: (s ++ "_test".toList).map Char.toLower
  · obtain ⟨q, htail, hne, hq, hs⟩ := exists_of_test_append htest htest'
    have hone : ∀ q ∈ "test_".toList.tails, q ≠ [] → q <+: "_test".toList.map Char.toLower →
        q = ['_'] := by decide
    obtain rfl := hone q htail hne hq
    exact namingStem_test hdot hline (List.append_cancel_right hs)
  · have hmark : IsMark s.getLast? ('_' :: "test".toList) := .separated (by decide) (by decide)
    exact namingStem_of_mark hmark (by decide) htest' hdot hline

/-- With `Test` behind a small letter or a digit, a name has the same stem. -/
theorem namingStem_before_capital_test {ext' : List Char} (hdot : '.' ∉ s) (hline : '\n' ∉ s)
    (htest : ¬"test_".toList <+: s.map Char.toLower)
    (hlast : s.getLast?.any fun c => isLowerAscii c || isDigitAscii c) :
    namingStem (s ++ "Test".toList ++ '.' :: ext) = namingStem (s ++ '.' :: ext') := by
  have htest' : ¬"test_".toList <+: (s ++ "Test".toList).map Char.toLower := by
    intro hstarts
    obtain ⟨q, htail, hne, hq, -⟩ := exists_of_test_append htest hstarts
    have hnone : ∀ q ∈ "test_".toList.tails, q ≠ [] →
        ¬q <+: "Test".toList.map Char.toLower := by decide
    exact hnone q htail hne hq
  exact namingStem_of_mark (.capital hlast (by decide)) (by decide) htest' hdot hline

/-- **A test shares the stem of its subject.** A name without a dot, a line feed or a start `test_`
in any case has as its stem what is left of it without its marks, one after the other. The names of
its tests have the same one: with `test_` before it, with `_test` or `.test` after it, and, where it
ends with a small letter or a digit, with `Test` after it. -/
theorem namingStem_shared (s : String) (hdot : '.' ∉ s.toList) (hline : '\n' ∉ s.toList)
    (htest : ¬"test_".toList <+: s.toList.map Char.toLower) :
    (∃ base, ReflTransGen Extends base s.toList ∧ (∀ b, ¬Extends b base) ∧
      namingStem (s ++ ".py").toList = toldStem (lower base)) ∧
    namingStem ("test_" ++ s ++ ".py").toList = namingStem (s ++ ".py").toList ∧
    namingStem (s ++ "_test.py").toList = namingStem (s ++ ".py").toList ∧
    namingStem (s ++ ".test.tsx").toList = namingStem (s ++ ".py").toList ∧
    ((∃ c ∈ s.toList.getLast?, isLowerAscii c ∨ isDigitAscii c) →
      namingStem (s ++ "Test.java").toList = namingStem (s ++ ".py").toList) := by
  have hplain : namingStem (s ++ ".py").toList = toldStem (lower (dropSuffixes s.toList)) := by
    rw [String.toList_append]
    exact namingStem_of_not_test hdot htest
  have hbehind : ∀ {x : String} {w ext : List Char}, x.toList = w ++ '.' :: ext →
      (s ++ x).toList = s.toList ++ w ++ '.' :: ext := by
    intro x w ext hx
    rw [String.toList_append, hx, List.append_assoc]
  have hname : (s ++ ".py").toList = s.toList ++ '.' :: "py".toList := String.toList_append
  refine ⟨?_, ?_, ?_, ?_, ?_⟩
  · obtain ⟨hmarks, hend⟩ := dropSuffixes_spec hline
    exact ⟨_, hmarks, hend, hplain⟩
  · rw [hplain, String.toList_append, String.toList_append]
    exact namingStem_behind_test hdot
  · rw [hbehind (show "_test.py".toList = "_test".toList ++ '.' :: "py".toList from rfl), hname]
    exact namingStem_before_test hdot hline htest
  · rw [hplain, String.toList_append]
    exact namingStem_of_not_test hdot htest
  · rintro ⟨c, hc, hsmall⟩
    have hlast : s.toList.getLast?.any fun c => isLowerAscii c || isDigitAscii c := by
      rw [hc]
      simpa using hsmall
    rw [hbehind (show "Test.java".toList = "Test".toList ++ '.' :: "java".toList from rfl), hname]
    exact namingStem_before_capital_test hdot hline htest hlast

/-- A service that is also a component, and its tests. -/
theorem namingStem_shared_of_component :
    '.' ∉ "user_serviceComponent".toList ∧ '\n' ∉ "user_serviceComponent".toList ∧
    ¬"test_".toList <+: "user_serviceComponent".toList.map Char.toLower ∧
    (∃ c ∈ "user_serviceComponent".toList.getLast?, isLowerAscii c ∨ isDigitAscii c) ∧
    (∃ base, ReflTransGen Extends base "user_serviceComponent".toList ∧ (∀ b, ¬Extends b base) ∧
      namingStem ("user_serviceComponent" ++ ".py").toList = toldStem (lower base)) ∧
    namingStem ("test_" ++ "user_serviceComponent" ++ ".py").toList =
      namingStem ("user_serviceComponent" ++ ".py").toList ∧
    namingStem ("user_serviceComponent" ++ "_test.py").toList =
      namingStem ("user_serviceComponent" ++ ".py").toList ∧
    namingStem ("user_serviceComponent" ++ ".test.tsx").toList =
      namingStem ("user_serviceComponent" ++ ".py").toList ∧
    namingStem ("user_serviceComponent" ++ "Test.java").toList =
      namingStem ("user_serviceComponent" ++ ".py").toList := by
  have hdot : '.' ∉ "user_serviceComponent".toList := by decide
  have hline : '\n' ∉ "user_serviceComponent".toList := by decide
  have htest : ¬"test_".toList <+: "user_serviceComponent".toList.map Char.toLower := by decide
  have hlast : ∃ c ∈ "user_serviceComponent".toList.getLast?, isLowerAscii c ∨ isDigitAscii c :=
    ⟨'t', by decide, by decide⟩
  obtain ⟨hbase, hbefore, hafter, hdotted, hcapital⟩ :=
    namingStem_shared "user_serviceComponent" hdot hline htest
  exact ⟨hdot, hline, htest, hlast, hbase, hbefore, hafter, hdotted, hcapital hlast⟩

end Naming

end Coupling
end CodeSurvey
