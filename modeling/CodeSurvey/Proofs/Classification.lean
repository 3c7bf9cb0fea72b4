/-
# Classification below a directory

A classification sees a path as its name and the segments before it that are not empty. A directory
in front of a path adds its own segments and leaves the name as it is (`Path.parts_append_slash`,
`Path.name_append_slash`), whatever slashes stand at the seam or at the start. So nothing that the
name says of a file is changed by a directory above it, and a file is left out below a directory for
a segment of one or of the other, or for its name (`Classification.isAnalyzable_below`).

A backslash counts as a slash before a path is looked at, so which of the two is written does not
matter (`Respells.forward_eq`).

Its role and its layer a path tells by words, and these stand in directories too. A slash separates
words, and the words of a chunk between separators are found in it alone: neither the cut before a
capital nor the lower case nor the singular of a word looks past a separator. So a path below a
directory has the words of both (`pathTokens_below`). A layer is named by the first group of
`layerWords` of which a word occurs; of words from two sources this is the earlier of the groups
that they name (`layerGroupOf?_append`), so a word names a layer as well in a directory as in the
name of a file (`layer_of_joined`).
-/

import CodeSurvey.Classification
import CodeSurvey.Proofs.Text
import Mathlib.Data.Finset.Lattice.Lemmas
import Mathlib.Data.List.Forall2

namespace CodeSurvey

open Text

namespace Path

variable {cs a b : List Char}

/-- The segments of a path that are not empty. -/
def parts (cs : List Char) : List (List Char) := (fields '/' cs).filter (!·.isEmpty)

theorem segments_ofList (cs : List Char) :
    segments (String.ofList cs) = (parts cs).map String.ofList := by
  rw [segments, fieldsOf, String.toList_ofList, List.filter_map, parts]
  congr 1
  refine List.filter_congr fun s _ => ?_
  rw [Function.comp_apply, Bool.eq_iff_iff, Bool.not_eq_true', Bool.not_eq_true',
    ← Bool.not_eq_true, ← Bool.not_eq_true]
  simp

/-- A path below another one has the segments of both. -/
theorem parts_append_slash (a b : List Char) : parts (a ++ '/' :: b) = parts a ++ parts b := by
  rw [parts, fields_append_separator, List.filter_append, parts, parts]

theorem parts_cons_slash (cs : List Char) : parts ('/' :: cs) = parts cs := parts_append_slash [] cs

theorem parts_concat_slash (cs : List Char) : parts (cs ++ ['/']) = parts cs := by
  rw [parts_append_slash]
  exact List.append_nil _

/-- Slashes at the end of a path make no segment. -/
theorem parts_dropEndWhile (cs : List Char) : parts (dropEndWhile (· == '/') cs) = parts cs := by
  induction cs using List.reverseRecOn with
  | nil => rfl
  | append_singleton cs c ih =>
    by_cases hc : c = '/'
    · subst hc
      have hdrop : dropEndWhile (· == '/') (cs ++ ['/']) = dropEndWhile (· == '/') cs := by
        simp [dropEndWhile]
      rw [hdrop, ih, parts_concat_slash]
    · have hdrop : dropEndWhile (· == '/') (cs ++ [c]) = cs ++ [c] := by simp [dropEndWhile, hc]
      rw [hdrop]

/-- The directory of a path has the segments that stand before its name. -/
theorem parts_directory (cs : List Char) : parts (directory cs) = parts (upToName cs) := by
  rw [directory]
  split
  · rfl
  · exact parts_dropEndWhile _

/-- Below a directory, what stands before the name gets the directory in front. -/
theorem upToName_append_slash (a b : List Char) :
    upToName (a ++ '/' :: b) = a ++ '/' :: upToName b := by
  unfold upToName dropEndWhile
  rw [List.reverse_append, List.reverse_cons, List.append_assoc, List.dropWhile_append]
  split
  · next hnone =>
    rw [List.isEmpty_iff.1 hnone]
    simp
  · simp

/-- The name of a path is the same below a directory. -/
theorem name_append_slash (a b : List Char) : name (a ++ '/' :: b) = name b := by
  have hwhole := upToName_append_name (a ++ '/' :: b)
  have hb := upToName_append_name b
  rw [upToName_append_slash] at hwhole
  nth_rewrite 3 [← hb] at hwhole
  simpa using hwhole

/-- What a slash in front of a path does not change is not changed by dropping the slashes there. -/
theorem dropWhile_slash_eq {α : Type} {f : List Char → α} (h : ∀ cs, f ('/' :: cs) = f cs)
    (cs : List Char) : f (cs.dropWhile (· == '/')) = f cs := by
  induction cs with
  | nil => rfl
  | cons c cs ih =>
    by_cases hc : c = '/'
    · subst hc
      rw [h, ← ih]
      rfl
    · rw [List.dropWhile_cons_of_neg (by simpa using hc)]

end Path

/-- A text in which some slashes of another one are written as backslashes. -/
def Respells (p q : String) : Prop :=
  List.Forall₂ (fun c d => d = c ∨ c = '/' ∧ d = '\\') p.toList q.toList

variable {t : Classification} {d p q : String}

/-- Spelt in another way, a path is the same with slashes. -/
theorem Respells.forward_eq (h : Respells p q) : Path.forward p.toList = Path.forward q.toList := by
  have hsame : List.Forall₂ Eq (Path.forward p.toList) (Path.forward q.toList) := by
    refine List.forall₂_map_left_iff.2 (List.forall₂_map_right_iff.2 (List.Forall₂.imp ?_ h))
    rintro c d (rfl | ⟨rfl, rfl⟩)
    · rfl
    · rfl
  rwa [List.forall₂_eq_eq_eq] at hsame

theorem Respells.slashed_eq (h : Respells p q) : slashed p.toList = slashed q.toList := by
  rw [slashed, h.forward_eq, slashed]

theorem forward_below : Path.forward (d ++ "/" ++ p).toList = Path.forward d.toList ++ '/' ::
    Path.forward p.toList := by
  simp [Path.forward]

/-- The name in a path is what stands after the last slash, however many stand in front. -/
theorem name_slashed (cs : List Char) : Path.name (slashed cs) = Path.name (Path.forward cs) :=
  Path.dropWhile_slash_eq (Path.name_append_slash []) _

/-- The name in a path is the same below a directory. -/
theorem name_slashed_below :
    Path.name (slashed (d ++ "/" ++ p).toList) = Path.name (slashed p.toList) := by
  rw [name_slashed, forward_below, Path.name_append_slash, name_slashed]

theorem extensionOf_below : extensionOf (d ++ "/" ++ p) = extensionOf p := by
  rw [extensionOf, name_slashed_below, extensionOf]

namespace Classification

theorem language?_below : t.language? (d ++ "/" ++ p) = t.language? p := by
  rw [language?, name_slashed_below, extensionOf_below, language?]

/-- A directory on a path is excluded if one of the segments before the name is. -/
theorem hasExcludedDirectory_slashed (t : Classification) (cs : List Char) :
    t.hasExcludedDirectory (slashed cs) =
    (Path.parts (Path.upToName (Path.forward cs))).any fun s =>
      t.excludedDirectories.contains (String.ofList s) := by
  have hup : Path.parts (Path.upToName (slashed cs)) =
      Path.parts (Path.upToName (Path.forward cs)) :=
    Path.dropWhile_slash_eq (f := fun cs => Path.parts (Path.upToName cs)) (fun cs => by
      rw [← Path.parts_cons_slash (Path.upToName cs)]
      exact congrArg _ (Path.upToName_append_slash [] cs)) _
  rw [← hup, ← Path.parts_directory, Path.parts, List.any_filter]
  rfl

theorem hasExcludedDirectory_below : t.hasExcludedDirectory (slashed (d ++ "/" ++ p).toList) =
    ((Path.segments (String.ofList (Path.forward d.toList))).any t.excludedDirectories.contains ||
      t.hasExcludedDirectory (slashed p.toList)) := by
  rw [hasExcludedDirectory_slashed, forward_below, Path.upToName_append_slash,
    Path.parts_append_slash, List.any_append, hasExcludedDirectory_slashed, Path.segments_ofList,
    List.any_map]
  rfl

/-- **A file below a directory** is analyzable exactly if it is by itself and no segment of the
directory is excluded. -/
theorem isAnalyzable_below : t.isAnalyzable (d ++ "/" ++ p) ↔
    t.isAnalyzable p ∧ ∀ s ∈ Path.segments (String.ofList (Path.forward d.toList)),
      s ∉ t.excludedDirectories := by
  have hdirs : (∀ s ∈ Path.segments (String.ofList (Path.forward d.toList)),
      s ∉ t.excludedDirectories) ↔
      (Path.segments (String.ofList (Path.forward d.toList))).any
        t.excludedDirectories.contains = false := by
    simp
  rw [hdirs, isAnalyzable, isAnalyzable, name_slashed_below, hasExcludedDirectory_below,
    language?_below]
  simp only [Bool.and_eq_true, Bool.not_or, Bool.not_eq_true']
  constructor
  · rintro ⟨⟨⟨hname, hbelow, hdir⟩, hexcluded⟩, hlanguage⟩
    exact ⟨⟨⟨⟨hname, hdir⟩, hexcluded⟩, hlanguage⟩, hbelow⟩
  · rintro ⟨⟨⟨⟨hname, hdir⟩, hexcluded⟩, hlanguage⟩, hbelow⟩
    exact ⟨⟨⟨hname, hbelow, hdir⟩, hexcluded⟩, hlanguage⟩

theorem extensionOf_of_respells (h : Respells p q) : extensionOf p = extensionOf q := by
  rw [extensionOf, h.slashed_eq, extensionOf]

theorem language?_of_respells (h : Respells p q) : t.language? p = t.language? q := by
  rw [language?, h.slashed_eq, extensionOf_of_respells h, language?]

theorem isAnalyzable_of_respells (h : Respells p q) : t.isAnalyzable p = t.isAnalyzable q := by
  rw [isAnalyzable, h.slashed_eq, language?_of_respells h, isAnalyzable]

/-- **Directories in front of a path.** By any tables, a file below a directory is analyzable
exactly if it is by itself and no segment of the directory is excluded; and whichever slashes of a
path are written as backslashes, it is analyzable, parseable, a test and in a language as before. -/
theorem below_directory (t : Classification) :
    (∀ d p : String, t.isAnalyzable (d ++ "/" ++ p) ↔
      t.isAnalyzable p ∧ ∀ s ∈ Path.segments (String.ofList (Path.forward d.toList)),
        s ∉ t.excludedDirectories) ∧
    ∀ p q : String, Respells p q → t.isAnalyzable q = t.isAnalyzable p ∧
      t.isParseable q = t.isParseable p ∧
      t.isTest q = t.isTest p ∧ t.language? q = t.language? p := by
  refine ⟨fun _ _ => isAnalyzable_below, fun p q h => ?_⟩
  have hanalyzable : t.isAnalyzable p = t.isAnalyzable q := isAnalyzable_of_respells h
  have hextension := extensionOf_of_respells h
  refine ⟨hanalyzable.symm, ?_, ?_, (language?_of_respells h).symm⟩
  · rw [isParseable, isParseable, hanalyzable, hextension]
  · rw [isTest, isTest, h.slashed_eq]

/-- A test in a package, with a backslash for one of two slashes. -/
theorem below_directory_of_backslash :
    Respells "web/tests/app.ts" "web\\tests/app.ts" ∧
    (standard.isAnalyzable "web\\tests/app.ts" = standard.isAnalyzable "web/tests/app.ts" ∧
      standard.isParseable "web\\tests/app.ts" = standard.isParseable "web/tests/app.ts" ∧
      standard.isTest "web\\tests/app.ts" = standard.isTest "web/tests/app.ts" ∧
      standard.language? "web\\tests/app.ts" = standard.language? "web/tests/app.ts") ∧
    standard.isTest "web/tests/app.ts" = true := by
  have h : Respells "web/tests/app.ts" "web\\tests/app.ts" := by
    unfold Respells
    decide
  exact ⟨h, (below_directory standard).2 _ _ h, by decide +kernel⟩

end Classification

/-- A separator between two texts joins their words. -/
theorem pathTokens_append_separator {c : Char} (hc : isWordSeparator c = true) (a b : List Char) :
    pathTokens (a ++ c :: b) = pathTokens a ++ pathTokens b := by
  simp only [pathTokens, fieldsBy_append_separator hc, List.filter_append, List.flatMap_append]

/-- The slashes that are dropped in front of a path separate no words. -/
theorem pathTokens_slashed (cs : List Char) :
    pathTokens (slashed cs) = pathTokens (Path.forward cs) :=
  Path.dropWhile_slash_eq (pathTokens_append_separator rfl []) _

/-- Below a directory, a path has the words of the directory and its own. -/
theorem pathTokens_below :
    pathTokens (slashed (d ++ "/" ++ p).toList) = pathTokens (slashed d.toList) ++
      pathTokens (slashed p.toList) := by
  rw [pathTokens_slashed, forward_below, pathTokens_append_separator rfl, pathTokens_slashed,
    pathTokens_slashed]

/-- The first place at which one of two tests passes is the earlier of the first places
at which either does. -/
theorem findIdx?_or {α : Type} (f g : α → Bool) (xs : List α) :
    xs.findIdx? (fun x => f x || g x) = Option.merge min (xs.findIdx? f) (xs.findIdx? g) := by
  induction xs with
  | nil => rfl
  | cons x xs ih =>
    -- A test that passes at the head is first there; behind the head, both
    -- first places move by one.
    rw [List.findIdx?_cons, List.findIdx?_cons, List.findIdx?_cons, ih]
    cases f x <;> cases g x <;> cases xs.findIdx? f <;> cases xs.findIdx? g <;> simp [Option.merge]

/-- The place in `layerWords` of the first group with a word that occurs. -/
def layerGroupOf? (tokens : List String) : Option Nat :=
  layerWords.findIdx? fun group => group.1.any tokens.contains

/-- The place of the group of words that names the layer of a path. -/
def layerGroup? (path : String) : Option Nat := layerGroupOf? (pathTokens (slashed path.toList))

/-- Of words from two sources the group that comes first decides. -/
theorem layerGroupOf?_append (ts us : List String) :
    layerGroupOf? (ts ++ us) = Option.merge min (layerGroupOf? ts) (layerGroupOf? us) := by
  have hany (words : List String) :
      words.any (ts ++ us).contains = (words.any ts.contains || words.any us.contains) := by
    rw [Bool.eq_iff_iff]
    simp only [Bool.or_eq_true, List.any_eq_true, List.contains_append, and_or_left, exists_or]
  simp only [layerGroupOf?, hany, findIdx?_or]

/-- The group that names a layer gives it, whatever the role; without one the
role gives the layer. -/
theorem layerOf_spec (path : String) (role : Role) :
    match layerGroup? path with
    | some i => ∃ group, layerWords[i]? = some group ∧ layerOf path role = group.2
    | none => layerOf path role = role.layer := by
  have hlayer : layerByWords (pathTokens (slashed path.toList)) =
      ((layerGroup? path).bind (layerWords[·]?)).map Prod.snd := by
    rw [layerByWords, List.find?_eq_bind_findIdx?_getElem?]
    rfl
  rw [layerOf, hlayer]
  cases hgroup : layerGroup? path with
  | none => rfl
  | some i =>
    obtain ⟨hlength, -⟩ := List.findIdx?_eq_some_iff_getElem.1 hgroup
    have hfound := List.getElem?_eq_getElem hlength
    refine ⟨layerWords[i], hfound, ?_⟩
    rw [Option.bind_some, hfound]
    rfl

/-- **The words of joined paths.** Two texts with a slash between them have the words of
both. So the group of words that names the layer of a joined path is the earlier of those
that its parts name; where there is one it gives the layer, whatever the role, and where
there is none the role does. -/
theorem layer_of_joined (a b : String) :
    (pathTokens (a ++ "/" ++ b).toList).toFinset = (pathTokens a.toList).toFinset ∪
      (pathTokens b.toList).toFinset ∧
    layerGroup? (a ++ "/" ++ b) = Option.merge min (layerGroup? a) (layerGroup? b) ∧
    ∀ role,
      match Option.merge min (layerGroup? a) (layerGroup? b) with
      | some i => ∃ group, layerWords[i]? = some group ∧ layerOf (a ++ "/" ++ b) role = group.2
      | none => layerOf (a ++ "/" ++ b) role = role.layer := by
  have hgroup : layerGroup? (a ++ "/" ++ b) = Option.merge min (layerGroup? a) (layerGroup? b) := by
    rw [layerGroup?, pathTokens_below, layerGroupOf?_append, layerGroup?, layerGroup?]
  refine ⟨?_, hgroup, fun role => ?_⟩
  · have hjoined : (a ++ "/" ++ b).toList = a.toList ++ '/' :: b.toList := by simp
    rw [hjoined, pathTokens_append_separator rfl, List.toFinset_append]
  · rw [← hgroup]
    exact layerOf_spec _ role

/-- A plural in a directory goes before a word in the name, whose group comes later. -/
example : layerGroup? "src/Services" = some 1 ∧ layerGroup? "userModel.ts" = some 2 ∧
    layerOf "src/Services/userModel.ts" .test = .business := by decide +kernel

end CodeSurvey
