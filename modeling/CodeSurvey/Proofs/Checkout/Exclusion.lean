/-
# Patterns of the settings, read twice

The patterns that settings exclude are read once by the walk over a checkout, as ignore rules, and
once by the preparation of its files, as globs for whole paths. To the preparation a pattern with a
blank or a slash at an end is none that could match (`IgnoreRule.isMatch_of_not_isPlain`), while the
walk trims it and takes the slashes for marks. Any other pattern with a slash is held by the walk
against the paths of the file and of the directories above it, and one without a slash against their
names (`IgnoreRule.leavesOut_of_isPlain`).

Names and paths come to the same where a pattern starts with a star and what follows cannot match a
slash (`IgnoreRule.IsShared`). What is above a file makes no difference where a pattern ends with a
star, which matches all that lies below. `Checkout.excluded_twice` draws this together.
-/

import CodeSurvey.Checkout
import CodeSurvey.Proofs.Checkout.Walk
import CodeSurvey.Proofs.Glob
import CodeSurvey.Proofs.Path.Tidy
import CodeSurvey.Proofs.Survey.Preparation

namespace CodeSurvey

open CodeSurvey.Tree

namespace IgnoreRule

variable {rules : List IgnoreRule} {globs : List String} {g path : String} {c : Char} {d : Bool}
  {names : List String}

/-- A pattern that has neither a blank nor a slash at an end. -/
structure IsPlain (g : String) : Prop where
  ne_empty : g ≠ ""
  head : ∀ c ∈ g.toList.head?, Text.isBlank c = false ∧ c ≠ '/'
  last : ∀ c ∈ g.toList.getLast?, Text.isBlank c = false ∧ c ≠ '/'

/-- Whether a pattern means the same for names and for whole paths: it holds a slash, or it
starts with a star, may end with another one, and all between them stands for single
characters other than a slash. -/
def IsShared (g : String) : Prop :=
  IsPlain g ∧ ('/' ∈ g.toList ∨ Glob.Floats '/' (Glob.parse g.toList))

theorem negated_of_ofPattern? {r : IgnoreRule} (h : ofPattern? g false = some r) :
    r.negated = false := by
  unfold ofPattern? at h
  split at h
  · cases h
  · cases h
    rfl

/-- Of rules without exceptions any may decide. -/
theorem decideFrom_eq_any (h : ∀ r ∈ rules, r.negated = false) (ignored : Bool) :
    decideFrom ignored path d rules = (ignored || rules.any (·.isMatch path d)) := by
  induction rules generalizing ignored with
  | nil => exact (Bool.or_false ignored).symm
  | cons r rs ih =>
    obtain ⟨hr, hrs⟩ := List.forall_mem_cons.1 h
    rw [decideFrom, List.foldl_cons, ← decideFrom, ih hrs, hr, List.any_cons]
    cases r.isMatch path d <;> simp

/-- Patterns leave out what the rule of one of them leaves out. -/
theorem ignores_ofPattern? :
    ignores (globs.filterMap (ofPattern? · false)) path d = true ↔
      ∃ g ∈ globs, ∃ r ∈ ofPattern? g false, r.isMatch path d = true := by
  have hrules : ∀ r ∈ globs.filterMap (ofPattern? · false), r.negated = false := by
    intro r hr
    obtain ⟨g, -, h⟩ := List.mem_filterMap.1 hr
    exact negated_of_ofPattern? h
  rw [ignores, decideFrom_eq_any hrules, Bool.false_or, List.any_eq_true]
  simp only [List.mem_filterMap]
  constructor
  · rintro ⟨r, ⟨g, hg, hr⟩, hmatch⟩
    exact ⟨g, hg, r, hr, hmatch⟩
  · rintro ⟨g, hg, r, hr, hmatch⟩
    exact ⟨r, ⟨g, hg, hr⟩, hmatch⟩

/-- Whether the rule of a pattern leaves out the file at the end of a way down, or a
directory on the way. -/
def DropsWay (g : String) (names : List String) : Prop :=
  (∃ r ∈ ofPattern? g false, r.isMatch (pathOf names) false = true) ∨
    ∃ above rest, above ≠ [] ∧ rest ≠ [] ∧ names = above ++ rest ∧
      ∃ r ∈ ofPattern? g false, r.isMatch (pathOf above) true = true

/-- Patterns leave out of a walk what one of them does. -/
theorem leavesOut_ofPattern? :
    LeavesOut (globs.filterMap (ofPattern? · false)) "" names ↔ ∃ g ∈ globs, DropsWay g names := by
  simp only [LeavesOut, ignores_ofPattern?]
  constructor
  · rintro (⟨g, hg, h⟩ | ⟨above, rest, habove, hrest, heq, g, hg, h⟩)
    · exact ⟨g, hg, .inl h⟩
    · exact ⟨g, hg, .inr ⟨above, rest, habove, hrest, heq, h⟩⟩
  · rintro ⟨g, hg, h | ⟨above, rest, habove, hrest, heq, h⟩⟩
    · exact .inl ⟨g, hg, h⟩
    · exact .inr ⟨above, rest, habove, hrest, heq, g, hg, h⟩

/-- The file at the end of a way down and the directories above it are at the ends of
the parts of the way. -/
theorem or_above_iff {P : List String → Prop} (hne : names ≠ []) :
    (P names ∨ ∃ above rest, above ≠ [] ∧ rest ≠ [] ∧ names = above ++ rest ∧ P above) ↔
      ∃ pre, pre ≠ [] ∧ pre <+: names ∧ P pre := by
  constructor
  · rintro (h | ⟨above, rest, habove, -, rfl, h⟩)
    · exact ⟨names, hne, List.prefix_refl names, h⟩
    · exact ⟨above, habove, List.prefix_append above rest, h⟩
  · rintro ⟨pre, hpre, ⟨rest, rfl⟩, h⟩
    by_cases hrest : rest = []
    · subst hrest
      rw [List.append_nil]
      exact .inl h
    · exact .inr ⟨pre, rest, hpre, hrest, rfl, h⟩

/-- The rule of a pattern without blanks and slashes at its ends has the pattern for
its glob, and no marks. -/
theorem ofPattern?_of_isPlain (h : IsPlain g) :
    ofPattern? g false = some ⟨g, false, false, false, g.toList.contains '/'⟩ := by
  have htrim : Text.trim g.toList = g.toList :=
    Text.trim_eq_self (fun c hc => (h.head c hc).1) fun c hc => (h.last c hc).1
  have hstart : (g.toList.head? == some '/') = false := by
    rw [beq_eq_false_iff_ne]
    exact fun heq => (h.head '/' heq).2 rfl
  have hend : (g.toList.getLast? == some '/') = false := by
    rw [beq_eq_false_iff_ne]
    exact fun heq => (h.last '/' heq).2 rfl
  have hnil : g.toList ≠ [] := by simpa using h.ne_empty
  rw [ofPattern?, htrim]
  split
  · exact absurd ‹_› hnil
  · simp only [hend, hstart, Bool.false_eq_true, if_false, String.ofList_toList]

/-- A pattern without blanks and slashes at its ends is held against whole paths if it has a slash,
and else against names. -/
theorem isMatch_of_isPlain (h : IsPlain g) :
    (∃ r ∈ ofPattern? g false, r.isMatch path d = true) ↔
      if '/' ∈ g.toList then Glob.isMatch g path = true else ∃ n ∈ Text.fieldsOf '/' path,
        Glob.isMatch g n = true := by
  have hempty : g.isEmpty = false := by simpa using h.ne_empty
  rw [ofPattern?_of_isPlain h]
  simp only [Option.mem_def, Option.some.injEq, exists_eq_left', isMatch, hempty, Bool.false_and,
    Bool.or_false, Bool.false_or, Bool.false_eq_true, if_false, List.contains_iff_mem]
  split
  · rfl
  · exact List.any_eq_true

/-- **What a pattern leaves out of a walk** that has no blank and no slash at an end: with a
slash, what lies at or below a path that it matches; and without one, what lies at or below a
name that it matches. -/
theorem dropsWay_of_isPlain (h : IsPlain g) (hne : names ≠ [])
    (hnames : ∀ n ∈ names, n ≠ "" ∧ '/' ∉ n.toList) :
    DropsWay g names ↔
      if '/' ∈ g.toList then ∃ pre, pre ≠ [] ∧ pre <+: names ∧ Glob.isMatch g (pathOf pre) = true
      else ∃ n ∈ names, Glob.isMatch g n = true := by
  simp only [DropsWay, isMatch_of_isPlain h]
  rw [or_above_iff (P := fun pre => if '/' ∈ g.toList then Glob.isMatch g (pathOf pre) = true
    else ∃ n ∈ Text.fieldsOf '/' (pathOf pre), Glob.isMatch g n = true) hne]
  by_cases hslash : '/' ∈ g.toList
  · simp only [if_pos hslash]
  · simp only [if_neg hslash]
    constructor
    · rintro ⟨pre, hpre, hpart, n, hn, hmatch⟩
      rw [fieldsOf_pathOf hpre fun m hm => hnames m (hpart.subset hm)] at hn
      exact ⟨n, hpart.subset hn, hmatch⟩
    · rintro ⟨n, hn, hmatch⟩
      refine ⟨names, hne, List.prefix_refl names, n, ?_, hmatch⟩
      rwa [fieldsOf_pathOf hne hnames]

/-- **Where a pattern means the same for names and for paths**, it leaves out of a walk what lies at
or below a path that it matches as a whole. -/
theorem IsShared.dropsWay_iff (h : IsShared g) (hne : names ≠ [])
    (hnames : ∀ n ∈ names, n ≠ "" ∧ '/' ∉ n.toList) :
    DropsWay g names ↔ ∃ pre, pre ≠ [] ∧ pre <+: names ∧ Glob.isMatch g (pathOf pre) = true := by
  obtain ⟨hplain, hform⟩ := h
  rw [dropsWay_of_isPlain hplain hne hnames]
  split
  · rfl
  · rename_i hslash
    have hfloats := hform.resolve_left hslash
    constructor
    · rintro ⟨n, hn, hmatch⟩
      obtain ⟨ms, rest, rfl⟩ := List.append_of_mem hn
      have hsuffix : n.toList <:+ (pathOf (ms ++ [n])).toList := by
        rw [pathOf_concat]
        exact suffix_pathIn _ n
      exact ⟨ms ++ [n], by simp, ⟨rest, by simp⟩,
        Glob.accepts_of_suffix hfloats.head? hmatch hsuffix⟩
    · rintro ⟨pre, hpre, hpart, hmatch⟩
      rw [Glob.isMatch, toList_pathOf fun n hn => (hnames n (hpart.subset hn)).1] at hmatch
      obtain ⟨x, hx, hname⟩ := hfloats.exists_of_accepts_joinWith (by simpa using hpre) hmatch
      obtain ⟨n, hn, rfl⟩ := List.mem_map.1 hx
      exact ⟨n, hpart.subset hn, hname⟩

/-- A pattern with a star at its end matches what lies below a path that it matches. -/
theorem isMatch_pathOf_of_prefix (hlast : g.toList.getLast? = some '*') {pre : List String}
    (hpart : pre <+: names) (h : Glob.isMatch g (pathOf pre) = true) :
    Glob.isMatch g (pathOf names) = true := by
  obtain ⟨init, hinit⟩ := List.getLast?_eq_some_iff.1 hlast
  have hstar : (Glob.parse g.toList).getLast? = some .star := by
    rw [hinit, Glob.getLast?_parse_concat (by decide)]
    rfl
  obtain ⟨rest, hrest⟩ := prefix_pathOf hpart
  rw [Glob.isMatch, ← hrest]
  exact Glob.accepts_append_of_getLast? hstar h rest

/-- **A pattern with a blank or a slash at an end** matches no tidy path. -/
theorem isMatch_of_not_isPlain (hg : ¬ IsPlain g) (htidy : Path.tidied path = path)
    (hend : path.toList.getLast? = some c) (hslash : c ≠ '/') : Glob.isMatch g path = false := by
  rw [← Bool.not_eq_true]
  intro hmatch
  have htidied := congrArg String.toList htidy
  rw [Path.tidied, String.toList_ofList] at htidied
  have hcanonical := Path.tidy_eq_self_iff.1 htidied
  refine hg ⟨?_, fun d hd => ?_, fun d hd => ?_⟩
  · rintro rfl
    rw [Glob.isMatch, String.toList_empty, Glob.parse] at hmatch
    rw [Glob.accepts_nil.1 hmatch] at hend
    cases hend
  · obtain ⟨rest, hrest⟩ := List.head?_eq_some_iff.1 hd
    by_cases hspecial : d = '*' ∨ d = '?' ∨ d = '['
    · rcases hspecial with rfl | rfl | rfl <;> decide
    · simp only [not_or] at hspecial
      rw [Glob.isMatch, hrest] at hmatch
      have hpath := Glob.head?_of_accepts_parse hspecial.1 hspecial.2.1 hspecial.2.2 hmatch
      exact ⟨hcanonical.head d hpath, fun hd => hcanonical.slash (hd ▸ hpath)⟩
  · obtain ⟨init, hinit⟩ := List.getLast?_eq_some_iff.1 hd
    by_cases hspecial : d = '*' ∨ d = '?' ∨ d = ']'
    · rcases hspecial with rfl | rfl | rfl <;> decide
    · simp only [not_or] at hspecial
      rw [Glob.isMatch, hinit] at hmatch
      have hpath := Glob.getLast?_of_accepts_parse hspecial.1 hspecial.2.1 hspecial.2.2 hmatch
      obtain rfl : c = d := Option.some.inj (hend.symm.trans hpath)
      exact ⟨hcanonical.last c hpath, hslash⟩

/-- Patterns that mean the same for names and for paths leave out of a walk what lies at or below a
path that one matches. -/
theorem leavesOut_iff_of_isShared (h : ∀ g ∈ globs, IsShared g) (hne : names ≠ [])
    (hnames : ∀ n ∈ names, n ≠ "" ∧ '/' ∉ n.toList) :
    LeavesOut (globs.filterMap (ofPattern? · false)) "" names ↔
      ∃ pre, pre ≠ [] ∧ pre <+: names ∧ Preparation.isExcluded globs (pathOf pre) = true := by
  rw [leavesOut_ofPattern?]
  simp only [Preparation.isExcluded, List.any_eq_true]
  constructor
  · rintro ⟨g, hg, hdrops⟩
    obtain ⟨pre, hpre, hpart, hmatch⟩ := ((h g hg).dropsWay_iff hne hnames).1 hdrops
    exact ⟨pre, hpre, hpart, g, hg, hmatch⟩
  · rintro ⟨pre, hpre, hpart, g, hg, hmatch⟩
    exact ⟨g, hg, ((h g hg).dropsWay_iff hne hnames).2 ⟨pre, hpre, hpart, hmatch⟩⟩

/-- What lies above a file makes no difference if all patterns end with a star. -/
theorem isExcluded_pathOf_iff (hlast : ∀ g ∈ globs, g.toList.getLast? = some '*')
    (hne : names ≠ []) :
    (∃ pre, pre ≠ [] ∧ pre <+: names ∧ Preparation.isExcluded globs (pathOf pre) = true) ↔
      Preparation.isExcluded globs (pathOf names) = true := by
  simp only [Preparation.isExcluded, List.any_eq_true]
  constructor
  · rintro ⟨pre, -, hpart, g, hg, hmatch⟩
    exact ⟨g, hg, isMatch_pathOf_of_prefix (hlast g hg) hpart hmatch⟩
  · rintro ⟨g, hg, hmatch⟩
    exact ⟨names, hne, List.prefix_refl names, g, hg, hmatch⟩

end IgnoreRule

namespace Preparation

variable {limit : Int} {globs : List String} {fs prepared : List SourceFile} {path : String}

/-- A path is that of a prepared file if it is that of a file that no pattern matches. -/
theorem mem_paths_files (h : (files limit globs fs).outcome.value = .ok prepared) :
    path ∈ prepared.map (·.path) ↔ ∃ f ∈ fs, Path.tidied f.path = path ∧
      isExcluded globs path = false := by
  rw [eq_of_files_eq_ok h, List.map_map, List.mem_map]
  constructor
  · rintro ⟨f, hf, rfl⟩
    obtain ⟨hmem, hkept⟩ := List.mem_filter.1 hf
    have hkept' : isExcluded globs (Path.tidied f.path) = false := by simpa using hkept
    exact ⟨f, hmem, rfl, hkept'⟩
  · rintro ⟨f, hf, rfl, hkept⟩
    exact ⟨f, List.mem_filter.2 ⟨hf, by simpa using hkept⟩, rfl⟩

end Preparation

namespace Checkout

/-- Without a file of ignore rules, a checkout has those of the settings. -/
theorem rules_of_find?_eq_none {s : Settings} {c : Checkout}
    (h : c.entries.find? (·.name == ignoreFile) = none) :
    c.rules s = .ok (s.excluded.filterMap (IgnoreRule.ofPattern? · false)) := by
  rw [rules, h]
  rfl

/-- **The patterns of the settings in the walk over a checkout and in the preparation of its
files.** For a file under a tidy path with no directory above it that is left out anyway: the walk
drops it exactly if the rule of some pattern matches it or a directory above it, and the preparation
exactly if some pattern matches its path. A pattern with a blank or a slash at an end matches no
path; any other pattern drops in the walk what lies at or below a path that it matches, if it has a
slash, and else what lies at or below a name that it matches. So patterns that mean the same for
names and for paths drop in the walk what lies at or below a path that one of them matches; and if
all of them end with a star besides, the walk and the preparation drop the same. -/
theorem excluded_twice (s : Settings) (c : Checkout) {names : List String} {bytes : List UInt8}
    (hplain : HasPlainNames c.entries) (hfile : FileAt bytes c.entries names)
    (hignore : c.entries.find? (·.name == ignoreFile) = none)
    (htidy : Path.tidied (pathOf names) = pathOf names)
    (hdirs : ∀ n ∈ names.dropLast, n ∉ Classification.standard.excludedDirectories) :
    ∃ rules, c.rules s = .ok rules ∧
      ((∀ n ∈ names.getLast?, n ∉ strayNames) →
        ((pathOf names, bytes) ∉ visible rules c.entries ↔ LeavesOut rules "" names)) ∧
      (∀ fs prepared, (∃ f ∈ fs, f.path = pathOf names) →
        (Preparation.files s.limits.maxFileSize s.excluded fs).outcome.value = .ok prepared →
        (pathOf names ∉ prepared.map (·.path) ↔
          Preparation.isExcluded s.excluded (pathOf names) = true)) ∧
      (LeavesOut rules "" names ↔ ∃ g ∈ s.excluded, IgnoreRule.DropsWay g names) ∧
      (∀ g, ¬ IgnoreRule.IsPlain g → Glob.isMatch g (pathOf names) = false) ∧
      (∀ g, IgnoreRule.IsPlain g → (IgnoreRule.DropsWay g names ↔
        if '/' ∈ g.toList then ∃ pre, pre ≠ [] ∧ pre <+: names ∧ Glob.isMatch g (pathOf pre) = true
        else ∃ n ∈ names, Glob.isMatch g n = true)) ∧
      ((∀ g ∈ s.excluded, IgnoreRule.IsShared g) → (LeavesOut rules "" names ↔
        ∃ pre, pre ≠ [] ∧ pre <+: names ∧ Preparation.isExcluded s.excluded (pathOf pre) = true)) ∧
      ((∀ g ∈ s.excluded, IgnoreRule.IsShared g ∧ g.toList.getLast? = some '*') →
        (LeavesOut rules "" names ↔ Preparation.isExcluded s.excluded (pathOf names) = true)) := by
  have hne := hfile.ne_nil
  have hnames := hplain _ _ hfile
  obtain ⟨d, hend, hslash⟩ := getLast?_pathOf hne hnames
  refine ⟨_, rules_of_find?_eq_none hignore, fun hname => ?_, fun fs prepared hfs hprepared => ?_,
    IgnoreRule.leavesOut_ofPattern?, fun g hg => ?_, fun g hg =>
      IgnoreRule.dropsWay_of_isPlain hg hne hnames, fun hshared => ?_, fun hshared => ?_⟩
  · rw [mem_visible_iff_of_rules hplain hfile hdirs hname, not_not]
  · obtain ⟨f, hf, hpath⟩ := hfs
    have hf' : Path.tidied f.path = pathOf names := by rw [hpath, htidy]
    rw [Preparation.mem_paths_files hprepared, ← Bool.not_eq_false, not_iff_not]
    exact ⟨fun ⟨_, _, _, hkept⟩ => hkept, fun hkept => ⟨f, hf, hf', hkept⟩⟩
  · exact IgnoreRule.isMatch_of_not_isPlain hg htidy hend hslash
  · exact IgnoreRule.leavesOut_iff_of_isShared hshared hne hnames
  · rw [IgnoreRule.leavesOut_iff_of_isShared (fun g hg => (hshared g hg).1) hne hnames]
    exact IgnoreRule.isExcluded_pathOf_iff (fun g hg => (hshared g hg).2) hne

/-- A checkout with a file in each of two directories. -/
def sample : Checkout :=
  ⟨"/work", [.directory "docs" [.file "guide.md" []], .directory "generated" [.file "client.ts" []],
    .file "main.py" []]⟩

theorem isPlain_of_ends {g : String} {c d : Char} (hhead : g.toList.head? = some c)
    (hlast : g.toList.getLast? = some d) (hc : Text.isBlank c = false ∧ c ≠ '/')
    (hd : Text.isBlank d = false ∧ d ≠ '/') : IgnoreRule.IsPlain g := by
  refine ⟨?_, fun e he => ?_, fun e he => ?_⟩
  · rintro rfl
    cases hhead
  · exact Option.some.inj (hhead.symm.trans he) ▸ hc
  · exact Option.some.inj (hlast.symm.trans he) ▸ hd

theorem hasPlainNames_sample : HasPlainNames sample.entries := by
  have hfile (n : String) (hn : n ≠ "" ∧ '/' ∉ n.toList) : HasPlainNames [.file n []] := by
    refine hasPlainNames_of_entries fun t ht => ?_
    obtain rfl := List.mem_singleton.1 ht
    exact ⟨hn, hasPlainNames_of_entries nofun⟩
  refine hasPlainNames_of_entries fun t ht => ?_
  simp only [sample, List.mem_cons, List.not_mem_nil, or_false] at ht
  rcases ht with rfl | rfl | rfl
  · exact ⟨by decide, hfile "guide.md" (by decide)⟩
  · exact ⟨by decide, hfile "client.ts" (by decide)⟩
  · exact ⟨by decide, hasPlainNames_of_entries nofun⟩

/-- Settings with two patterns that end with a star. -/
def starred : Settings := { excluded := ["generated/*", "*cache*"] }

theorem excluded_twice_of_generated :
    ∃ rules prepared, sample.rules starred = .ok rules ∧
      ("generated/client.ts", []) ∉ visible rules sample.entries ∧
      (Preparation.files starred.limits.maxFileSize starred.excluded
        [{ path := "generated/client.ts" }]).outcome.value = .ok prepared ∧
      "generated/client.ts" ∉ prepared.map (·.path) := by
  have hfile : FileAt [] sample.entries ["generated", "client.ts"] :=
    .inner (List.mem_cons_of_mem _ (List.mem_cons_self ..)) (.here (List.mem_cons_self ..))
  have hfloats : Glob.Floats '/' (Glob.parse "*cache*".toList) :=
    ⟨"cache".toList.map .char, by decide, .inr (by decide +kernel)⟩
  have hshared : ∀ g ∈ starred.excluded, IgnoreRule.IsShared g ∧ g.toList.getLast? = some '*' := by
    intro g hg
    simp only [starred, List.mem_cons, List.not_mem_nil, or_false] at hg
    rcases hg with rfl | rfl
    · exact ⟨⟨isPlain_of_ends rfl rfl (by decide) (by decide), .inl (by decide)⟩, by decide⟩
    · exact ⟨⟨isPlain_of_ends rfl rfl (by decide) (by decide), .inr hfloats⟩, by decide⟩
  obtain ⟨rules, hrules, hvisible, hprepared, -, -, -, -, hstar⟩ :=
    excluded_twice starred sample hasPlainNames_sample hfile (by decide) (by decide) (by decide)
  have hexcluded : Preparation.isExcluded starred.excluded (pathOf ["generated", "client.ts"]) =
      true := by decide +kernel
  have hempty : ∀ f ∈ [({ path := "generated/client.ts" } : SourceFile)],
      f.content = none := by decide
  have hgiven := Preparation.value_files_of_no_content starred.limits.maxFileSize
    starred.excluded hempty
  refine ⟨rules, _, hrules, (hvisible (by decide)).2 ((hstar hshared).2 hexcluded), hgiven, ?_⟩
  exact (hprepared _ _ ⟨_, List.mem_singleton_self _, by decide⟩ hgiven).2 hexcluded

/-- The walk and the preparation do not read all patterns alike: the name of a directory drops in
the walk what lies below, and is no pattern for the path of what lies there. -/
theorem read_differently_of_name :
    ¬ ∀ (s : Settings) (c : Checkout) (names : List String) (bytes : List UInt8),
      HasPlainNames c.entries →
      FileAt bytes c.entries names → c.entries.find? (·.name == ignoreFile) = none →
      Path.tidied (pathOf names) = pathOf names →
      (∀ n ∈ names.dropLast, n ∉ Classification.standard.excludedDirectories) →
      ∀ rules, c.rules s = .ok rules →
        (LeavesOut rules "" names ↔ ∀ fs prepared, (∃ f ∈ fs, f.path = pathOf names) →
          (Preparation.files s.limits.maxFileSize s.excluded fs).outcome.value = .ok prepared →
            pathOf names ∉ prepared.map (·.path)) := by
  intro hsame
  have hfile : FileAt [] sample.entries ["docs", "guide.md"] :=
    .inner (List.mem_cons_self ..) (.here (List.mem_cons_self ..))
  have hiff := hsame { excluded := ["docs"] } sample ["docs", "guide.md"]
    [] hasPlainNames_sample hfile (by decide)
    (by decide) (by decide) _ rfl
  have hdropped : LeavesOut [⟨"docs", false, false, false, false⟩] "" ["docs", "guide.md"] :=
    .inr ⟨["docs"], ["guide.md"], by decide, by decide, rfl, by decide +kernel⟩
  have hempty : ∀ f ∈ [({ path := "docs/guide.md" } : SourceFile)], f.content = none := by decide
  have hgiven := Preparation.value_files_of_no_content ({} : Settings).limits.maxFileSize
    ["docs"] hempty
  have hkept : Preparation.isExcluded ["docs"] "docs/guide.md" = false := by decide +kernel
  refine hiff.1 hdropped _ _ ⟨_, List.mem_singleton_self _, by decide⟩ hgiven ?_
  exact (Preparation.mem_paths_files hgiven).2 ⟨_, List.mem_singleton_self _, by decide, hkept⟩

end Checkout
end CodeSurvey
