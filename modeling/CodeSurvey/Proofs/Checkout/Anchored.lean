/-
# Rules that are held against whole paths

A rule with a slash at its start or within is held against the whole path. A glob knows no segments:
a star may stand for slashes, and so may a question mark. So a segment of its glob stands against a
run of the path's segments (`Glob.accepts_iff_matchesRuns`), and against a single one where the
segment holds no wildcard, or where the path has no more segments than the glob
(`Glob.MatchesRuns.matchesSegments`).

Besides, a rule for directories matches what lies below the directory whose path it spells,
wildcards and all (`IgnoreRule.prefix_iff_fields`). `IgnoreRule.isMatch_anchored` draws this
together. A star at the start of a glob thus matches names at any depth, although the rule is marked
for the root (`IgnoreRule.anchored_star_matches_below_root`).
-/

import CodeSurvey.Checkout.IgnoreRule
import CodeSurvey.Proofs.Glob

namespace CodeSurvey

open CodeSurvey.Path Text

namespace Glob

variable {glob path : List Char} {segments : List (List Char)}

/-- Whether the segments of a glob match some segments, one each. -/
def MatchesSegments (glob : List Char) (segments : List (List Char)) : Prop :=
  List.Forall₂ (fun g s => accepts (parse g) s = true) (fields '/' glob) segments

/-- Whether the segments of a glob match runs of the segments of a path, one run each. -/
def MatchesRuns (glob path : List Char) : Prop :=
  ∃ runs : List (List (List Char)), runs.flatten = fields '/' path ∧ (∀ run ∈ runs, run ≠ []) ∧
    MatchesSegments glob (runs.map (joinWith '/'))

/-- Whether a text is free of wildcards. -/
def IsLiteral (cs : List Char) : Prop := '*' ∉ cs ∧ '?' ∉ cs

/-- **A glob without sets matches a path in runs of segments.** -/
theorem accepts_iff_matchesRuns (hset : '[' ∉ glob) :
    accepts (parse glob) path = true ↔ MatchesRuns glob path := by
  have hne : fields '/' glob ≠ [] := fields_ne_nil
  have hsets : ∀ g ∈ fields '/' glob, '[' ∉ g := fun g hg hmem => hset (mem_of_mem_fields hg hmem)
  have hparts : accepts (parse (joinWith '/' (fields '/' glob))) path = true ↔ _ :=
    accepts_parse_joinWith hne hsets (by decide)
  rw [joinWith_fields] at hparts
  rw [hparts]
  constructor
  · rintro ⟨parts, rfl, hmatch⟩
    have hparts' : parts ≠ [] := fun heq => hne (List.forall₂_nil_right_iff.1 (heq ▸ hmatch))
    refine ⟨parts.map (fields '/'), (fields_joinWith_eq_flatten hparts').symm, ?_, ?_⟩
    · intro run hrun
      obtain ⟨part, -, rfl⟩ := List.mem_map.1 hrun
      exact fields_ne_nil
    · have hjoin : (parts.map (fields '/')).map (joinWith '/') = parts := by
        rw [List.map_map]
        exact (List.map_congr_left fun part _ => joinWith_fields).trans (List.map_id parts)
      rw [hjoin]
      exact hmatch
  · rintro ⟨runs, hruns, hnonempty, hmatch⟩
    refine ⟨runs.map (joinWith '/'), ?_, hmatch⟩
    rw [← joinWith_flatten hnonempty, hruns, joinWith_fields]

/-- Segments without sets match themselves. -/
theorem matchesSegments_self (hset : '[' ∉ glob) : MatchesSegments glob (fields '/' glob) :=
  List.forall₂_same.2 fun _ hg => accepts_parse_self fun hmem => hset (mem_of_mem_fields hg hmem)

/-- A glob without wildcards matches no segments but its own. -/
theorem eq_of_matchesSegments (hset : '[' ∉ glob) (hliteral : IsLiteral glob)
    (h : MatchesSegments glob segments) : segments = fields '/' glob := by
  have heq : List.Forall₂ (fun g s => g = s) (fields '/' glob) segments := by
    refine ((List.forall₂_and_left _ _).2 ⟨fun g hg => hg, h⟩).imp fun g s ⟨hg, hs⟩ => ?_
    have hplain : '*' ∉ g ∧ '?' ∉ g ∧ '[' ∉ g :=
      ⟨fun hmem => hliteral.1 (mem_of_mem_fields hg hmem),
        fun hmem => hliteral.2 (mem_of_mem_fields hg hmem), fun hmem =>
          hset (mem_of_mem_fields hg hmem)⟩
    exact ((accepts_parse_iff_eq hplain).1 hs).symm
  rw [List.forall₂_eq_eq_eq] at heq
  exact heq.symm

theorem length_le_length_flatten {runs : List (List (List Char))} (hne : ∀ run ∈ runs, run ≠ []) :
    runs.length ≤ runs.flatten.length := by
  induction runs with
  | nil => exact Nat.le_refl 0
  | cons run runs ih =>
    obtain ⟨hrun, hruns⟩ := List.forall_mem_cons.1 hne
    have hpos : 1 ≤ run.length := List.length_pos_iff.2 hrun
    have hrest := ih hruns
    rw [List.flatten_cons, List.length_append, List.length_cons]
    omega

/-- Runs as many as what they hold are runs of one. -/
theorem map_joinWith_of_length_le {runs : List (List (List Char))} (hne : ∀ run ∈ runs, run ≠ [])
    (hlength : runs.flatten.length ≤ runs.length) : runs.map (joinWith '/') = runs.flatten := by
  induction runs with
  | nil => rfl
  | cons run runs ih =>
    obtain ⟨hrun, hruns⟩ := List.forall_mem_cons.1 hne
    have hpos : 1 ≤ run.length := List.length_pos_iff.2 hrun
    have hle := length_le_length_flatten hruns
    rw [List.flatten_cons, List.length_append, List.length_cons] at hlength
    obtain ⟨s, rfl⟩ := List.length_eq_one_iff.1 (show run.length = 1 by omega)
    rw [List.map_cons, List.flatten_cons, ih hruns (by omega)]
    rfl

/-- **A glob matches a path segment by segment** where it holds no wildcard, or where the path has
no more segments than it. -/
theorem MatchesRuns.matchesSegments (hset : '[' ∉ glob) (h : MatchesRuns glob path)
    (hshort : IsLiteral glob ∨ (fields '/' path).length ≤ (fields '/' glob).length) :
    MatchesSegments glob (fields '/' path) := by
  obtain ⟨runs, hruns, hne, hmatch⟩ := h
  rcases hshort with hliteral | hlength
  · have hglob := eq_of_matchesSegments hset hliteral hmatch
    have hpath : path = glob := by
      have hjoin : joinWith '/' (fields '/' path) = path := joinWith_fields
      rw [← hjoin, ← hruns, joinWith_flatten hne, hglob, joinWith_fields]
    rw [hpath]
    exact matchesSegments_self hset
  · have hsame : runs.length = (fields '/' glob).length := by rw [hmatch.length_eq, List.length_map]
    rw [← hruns, ← hsame] at hlength
    rw [← hruns, ← map_joinWith_of_length_le hne hlength]
    exact hmatch

end Glob

namespace IgnoreRule

variable {r : IgnoreRule} {pattern path : String} {d negated : Bool} {c : Char}

/-- The glob of a rule is a part of its pattern. -/
theorem mem_of_mem_glob (h : ofPattern? pattern negated = some r) (hc : c ∈ r.glob.toList) :
    c ∈ pattern.toList := by
  have htail (cs : List Char) (b : Bool) (hc : c ∈ if b then cs.tail else cs) : c ∈ cs := by
    split at hc
    · exact List.mem_of_mem_tail hc
    · exact hc
  have hinit (cs : List Char) (b : Bool) (hc : c ∈ if b then cs.dropLast else cs) : c ∈ cs := by
    split at hc
    · exact List.dropLast_subset _ hc
    · exact hc
  unfold ofPattern? at h
  split at h
  · cases h
  · cases h
    rw [String.toList_ofList] at hc
    exact mem_of_mem_trim (hinit _ _ (htail _ _ hc))

/-- **What a rule for directories spells out lies above a path** if the segments of its glob are the
first ones of the path. -/
theorem prefix_iff_fields {glob path : List Char} :
    (glob ++ ['/']) <+: path ↔ ∃ rest, rest ≠ [] ∧ fields '/' path = fields '/' glob ++ rest := by
  constructor
  · rintro ⟨below, rfl⟩
    refine ⟨fields '/' below, fields_ne_nil, ?_⟩
    rw [List.append_assoc]
    exact fields_append_separator '/' glob below
  · rintro ⟨rest, hrest, heq⟩
    refine ⟨joinWith '/' rest, ?_⟩
    have hpath := congrArg (joinWith '/') heq
    rw [joinWith_fields, joinWith_append fields_ne_nil hrest, joinWith_fields] at hpath
    rw [hpath, List.append_assoc]
    rfl

theorem isMatch_iff_of_anchored (hanchored : r.anchored = true ∨ r.hasSlash = true)
    (hset : '[' ∉ r.glob.toList) :
    r.isMatch path d = true ↔ r.glob ≠ "" ∧ (r.onlyDirectories = true → d = true) ∧
      (Glob.MatchesRuns r.glob.toList path.toList ∨ (r.onlyDirectories = true ∧
        ∃ rest, rest ≠ [] ∧ fields '/' path.toList = fields '/' r.glob.toList ++ rest)) := by
  have hheld : (r.anchored || r.hasSlash) = true := by simpa using hanchored
  rw [← Glob.accepts_iff_matchesRuns hset, ← prefix_iff_fields, isMatch]
  by_cases hnone : (r.glob.isEmpty || (r.onlyDirectories && !d)) = true
  · rw [if_pos hnone]
    simp only [Bool.or_eq_true, String.isEmpty_iff, Bool.and_eq_true, Bool.not_eq_true'] at hnone
    refine iff_of_false Bool.false_ne_true ?_
    rintro ⟨hglob, hdir, -⟩
    rcases hnone with hempty | ⟨honly, hd⟩
    · exact hglob hempty
    · rw [hdir honly] at hd
      cases hd
  · rw [if_neg hnone, if_pos hheld, Bool.or_eq_true, Bool.and_eq_true, List.isPrefixOf_iff_prefix,
      Glob.isMatch]
    simp only [Bool.or_eq_true, String.isEmpty_iff, Bool.and_eq_true, Bool.not_eq_true',
      not_or, not_and, Bool.not_eq_false] at hnone
    exact ⟨fun h => ⟨hnone.1, hnone.2, h⟩, fun h => h.2.2⟩

/-- **What a rule matches that is held against whole paths,** if its pattern has no sets: paths that
the segments of its glob match in runs of segments, and, if it is for directories, what lies below
the directory that the glob spells. So it matches a path segment by segment, or what is above it,
where the glob holds no wildcard and where the path has no more segments than the glob; and without
a slash and a wildcard, only what has the glob for its first segment. -/
theorem isMatch_anchored (hr : ofPattern? pattern negated = some r)
    (hanchored : r.anchored = true ∨ r.hasSlash = true) (hset : '[' ∉ pattern.toList)
    (path : String) (d : Bool) :
    (r.isMatch path d = true ↔ r.glob ≠ "" ∧ (r.onlyDirectories = true → d = true) ∧
      (Glob.MatchesRuns r.glob.toList path.toList ∨ (r.onlyDirectories = true ∧
        ∃ rest, rest ≠ [] ∧ fields '/' path.toList = fields '/' r.glob.toList ++ rest))) ∧
      (Glob.IsLiteral r.glob.toList ∨
          (fields '/' path.toList).length ≤ (fields '/' r.glob.toList).length →
            r.isMatch path d = true →
        ∃ above, above ≠ [] ∧ above <+: fields '/' path.toList ∧
          Glob.MatchesSegments r.glob.toList above) ∧
      (Glob.IsLiteral r.glob.toList → '/' ∉ r.glob.toList → r.isMatch path d = true →
        (fields '/' path.toList).head? = some r.glob.toList) := by
  have hset' : '[' ∉ r.glob.toList := fun hmem => hset (mem_of_mem_glob hr hmem)
  have hsegments : Glob.IsLiteral r.glob.toList ∨
      (fields '/' path.toList).length ≤ (fields '/' r.glob.toList).length →
        r.isMatch path d = true →
        ∃ above, above ≠ [] ∧ above <+: fields '/' path.toList ∧
          Glob.MatchesSegments r.glob.toList above := by
    intro hshort hmatch
    obtain ⟨-, -, hruns | ⟨-, rest, -, hbelow⟩⟩ :=
      (isMatch_iff_of_anchored hanchored hset').1 hmatch
    · exact ⟨_, fields_ne_nil, List.prefix_refl _, hruns.matchesSegments hset' hshort⟩
    · exact ⟨_, fields_ne_nil, ⟨rest, hbelow.symm⟩, Glob.matchesSegments_self hset'⟩
  refine ⟨isMatch_iff_of_anchored hanchored hset', hsegments, fun hliteral hslash hmatch => ?_⟩
  obtain ⟨above, -, ⟨rest, hrest⟩, hmatches⟩ := hsegments (.inl hliteral) hmatch
  rw [← hrest, Glob.eq_of_matchesSegments hset' hliteral hmatches, fields_of_not_mem hslash]
  rfl

theorem isMatch_anchored_of_docs :
    ofPattern? "docs/*.md" false = some ⟨"docs/*.md", false, false, false, true⟩ ∧
      '[' ∉ "docs/*.md".toList ∧
      (fields '/' "docs/guide.md".toList).length ≤ (fields '/' "docs/*.md".toList).length ∧
      ∃ above, above ≠ [] ∧ above <+: fields '/' "docs/guide.md".toList ∧
        Glob.MatchesSegments "docs/*.md".toList above := by
  have hr : ofPattern? "docs/*.md" false =
      some ⟨"docs/*.md", false, false, false, true⟩ := by decide
  have hmatch : IgnoreRule.isMatch ⟨"docs/*.md", false, false, false, true⟩ "docs/guide.md"
      false = true := by
    decide +kernel
  exact ⟨hr, by decide, by decide,
    (isMatch_anchored hr (.inr rfl) (by decide) "docs/guide.md" false).2.1
      (.inr (by decide)) hmatch⟩

/-- A rule that is marked for the root matches a name below it, as its star stands for the
directory and the slash. -/
theorem anchored_star_matches_below_root :
    ¬ ∀ (pattern : String) (negated : Bool) (r : IgnoreRule) (path : String) (d : Bool),
      ¬ ['*', '*'] <:+: pattern.toList → '[' ∉ pattern.toList → ']' ∉ pattern.toList →
      ofPattern? pattern negated = some r → r.anchored = true ∨ r.hasSlash = true →
        r.isMatch path d = true →
        ∃ above, above ≠ [] ∧ above <+: fields '/' path.toList ∧
          Glob.MatchesSegments r.glob.toList above := by
  intro hall
  obtain ⟨above, -, hprefix, hmatches⟩ :=
    hall "/*.log" false ⟨"*.log", false, true, false, false⟩ "src/debug.log" false (by decide)
      (by decide) (by decide)
      (by decide) (.inl rfl) (by decide +kernel)
  have hglob : fields '/' "*.log".toList = ["*.log".toList] := by decide
  rw [Glob.MatchesSegments, hglob] at hmatches
  -- One segment is to match, and the first one of the path does not.
  obtain ⟨s, ss, hs, hnil, rfl⟩ := List.forall₂_cons_left_iff.1 hmatches
  obtain rfl := List.forall₂_nil_left_iff.1 hnil
  have hfirst : s = "src".toList := by
    obtain ⟨rest, hrest⟩ := hprefix
    exact (List.cons.inj (hrest.trans (by decide : _ = ["src".toList, "debug.log".toList]))).1
  subst hfirst
  exact absurd hs (by decide +kernel)

end IgnoreRule
end CodeSurvey
