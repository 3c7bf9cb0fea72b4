/-
# Names and addresses that are accepted

The forms by which the checks before a run judge a full name and an address are patterns. As
grammars they say: a full name is an owner and a name with a slash between them
(`Validation.isFullName_iff`), and an address is a scheme, a host, an owner and a name
(`Validation.isUrl_iff`). A repository can be surveyed exactly if its paths are in order and its
full name and its address are missing or of these forms (`Validation.fault?_of_pathsInOrder`).
-/

import CodeSurvey.Proofs.Pattern
import CodeSurvey.Proofs.Text
import CodeSurvey.Validation

namespace CodeSurvey
namespace Validation

open Pattern

/-- Whether a text is a name: letters, digits, underscores, dots and hyphens
of ASCII, at least one. -/
def IsName (w : List Char) : Prop := w ≠ [] ∧ ∀ c ∈ w, isNameChar c = true

/-- Whether a text can be the host of an address. -/
def IsHost (w : List Char) : Prop := w ≠ [] ∧ ∀ c ∈ w, (c != '/' && !Text.isBlank c) = true

theorem IsName.slash_not_mem {w : List Char} (h : IsName w) : '/' ∉ w :=
  fun hmem => absurd (h.2 _ hmem) (by decide)

theorem IsHost.slash_not_mem {w : List Char} (h : IsHost w) : '/' ∉ w :=
  fun hmem => absurd (h.2 _ hmem) (by decide)

/-- The language of names. -/
def names : Language Char := oneOf isNameChar * KStar.kstar (oneOf isNameChar)

/-- The language of hosts. -/
def hosts : Language Char :=
  oneOf (fun c => c != '/' && !Text.isBlank c) *
    KStar.kstar (oneOf fun c => c != '/' && !Text.isBlank c)

theorem mem_names {w : List Char} : w ∈ names ↔ IsName w := mem_some_oneOf

theorem mem_hosts {w : List Char} : w ∈ hosts ↔ IsHost w := mem_some_oneOf

theorem spells_ownerName : ownerName.Spells names := (spells_char isNameChar).some1

theorem mem_singleton {v w : List Char} : w ∈ ({v} : Language Char) ↔ w = v := Iff.rfl

/-- **Full names** are two names with a slash between them; a line feed may follow. -/
theorem isFullName_iff {s : String} :
    isFullName s = true ↔ ∃ owner name, IsName owner ∧ IsName name ∧
      (s.toList = owner ++ '/' :: name ∨ s.toList = owner ++ '/' :: name ++ ['\n']) := by
  have hspells : List.Forall₂ Spells [ownerName, one '/', ownerName] [names, {['/']}, names] :=
    .cons spells_ownerName <| .cons (spells_one '/') <| .cons spells_ownerName .nil
  have hprod (w : List Char) : w ∈ ([names, {['/']}, names] : List (Language Char)).prod ↔
      ∃ owner name, IsName owner ∧ IsName name ∧ w = owner ++ '/' :: name := by
    simp only [List.prod_cons, List.prod_nil, mul_one, Language.mem_mul, mem_names, mem_singleton]
    constructor
    · rintro ⟨owner, howner, _, ⟨_, rfl, name, hname, rfl⟩, rfl⟩
      exact ⟨owner, name, howner, hname, rfl⟩
    · rintro ⟨owner, name, howner, hname, rfl⟩
      exact ⟨owner, howner, _, ⟨_, rfl, name, hname, rfl⟩, rfl⟩
  show ((all ([ownerName, one '/', ownerName] ++ [textEnd])).matchStart? s.toList).isSome = true ↔ _
  rw [isSome_matchStart?_iff hspells]
  constructor
  · rintro ⟨w, hw, h⟩
    obtain ⟨owner, name, howner, hname, rfl⟩ := (hprod w).1 hw
    exact ⟨owner, name, howner, hname, h⟩
  · rintro ⟨owner, name, howner, hname, h⟩
    exact ⟨_, (hprod _).2 ⟨owner, name, howner, hname, rfl⟩, h⟩

/-- Whether a text is the address of an owner's repository on a host. -/
def IsAddress (w host owner name : List Char) : Prop :=
  ∃ scheme ∈ ["http://".toList, "https://".toList], ∃ ending ∈ [[], ".git".toList],
    ∃ slash ∈ [[], ['/']], w = scheme ++ host ++ '/' :: owner ++ '/' :: name ++ ending ++ slash

/-- The languages of the parts of an address. -/
def addressParts : List (Language Char) :=
  [{"http".toList}, {['s']} + 1, {"://".toList}, hosts, {['/']}, names, {['/']}, names,
    {".git".toList} + 1, {['/']} + 1]

theorem mem_prod_addressParts {w : List Char} : w ∈ addressParts.prod ↔
    ∃ host owner name, IsHost host ∧ IsName owner ∧ IsName name ∧ IsAddress w host owner name := by
  simp only [addressParts, List.prod_cons, List.prod_nil, mul_one, Language.mem_mul,
    Language.mem_add, Language.mem_one, mem_names, mem_hosts, mem_singleton]
  constructor
  · rintro ⟨_, rfl, _, ⟨s, hs, _,
      ⟨_, rfl, _, ⟨host, hhost, _,
        ⟨_, rfl, _, ⟨owner, howner, _,
          ⟨_, rfl, _, ⟨name, hname, _, ⟨ending, hending, slash, hslash, rfl⟩, rfl⟩, rfl⟩, rfl⟩,
          rfl⟩, rfl⟩, rfl⟩, rfl⟩, rfl⟩
    refine ⟨host, owner, name, hhost, howner, hname, "http".toList ++ s ++ "://".toList, ?_, ending,
      ?_, slash, ?_, ?_⟩
    · rcases hs with rfl | rfl <;> simp
    · rcases hending with rfl | rfl <;> simp
    · rcases hslash with rfl | rfl <;> simp
    · simp
  · rintro ⟨host, owner, name, hhost, howner, hname, scheme, hscheme, ending, hending, slash,
      hslash, rfl⟩
    obtain ⟨s, hs, rfl⟩ : ∃ s, (s = ['s'] ∨ s = []) ∧
        scheme = "http".toList ++ s ++ "://".toList := by
      rcases List.mem_pair.1 hscheme with rfl | rfl
      · exact ⟨[], .inr rfl, rfl⟩
      · exact ⟨['s'], .inl rfl, rfl⟩
    refine ⟨_, rfl, _, ⟨s, hs, _,
      ⟨_, rfl, _, ⟨host, hhost, _,
        ⟨_, rfl, _, ⟨owner, howner, _,
          ⟨_, rfl, _, ⟨name, hname, _, ⟨ending, (List.mem_pair.1 hending).symm, slash,
            (List.mem_pair.1 hslash).symm, rfl⟩, rfl⟩, rfl⟩, rfl⟩, rfl⟩,
      rfl⟩, rfl⟩, rfl⟩, ?_⟩
    simp

theorem forall₂_spells_urlForm :
    List.Forall₂ Spells
      [word "http", optional (one 's'), word "://",
        some1 (char fun c => c != '/' && !Text.isBlank c), one '/', ownerName, one '/',
        fewest1 (char isNameChar), optional (word ".git"), optional (one '/')]
      addressParts :=
  .cons (spells_word "http") <| .cons (spells_one 's').optional <| .cons (spells_word "://") <|
    .cons (spells_char _).some1 <| .cons (spells_one '/') <| .cons spells_ownerName <|
      .cons (spells_one '/') <|
      .cons (spells_char isNameChar).fewest1 <| .cons (spells_word ".git").optional <|
        .cons (spells_one '/').optional .nil

/-- **Addresses** are what is left of a text without the blanks around it. -/
theorem isUrl_iff {s : String} :
    isUrl s = true ↔ ∃ host owner name, IsHost host ∧ IsName owner ∧ IsName name ∧
      IsAddress (Text.trim s.toList) host owner name := by
  rw [← mem_prod_addressParts]
  refine Iff.trans (isSome_matchStart?_iff forall₂_spells_urlForm) ⟨?_, fun h => ⟨_, h, .inl rfl⟩⟩
  rintro ⟨w, hw, h | h⟩
  · exact h ▸ hw
  · -- A line feed is blank, so it does not end what is trimmed.
    have hlast : (Text.trim s.toList).getLast? = some '\n' := by rw [h, List.getLast?_concat]
    exact absurd (Text.isBlank_of_getLast?_trim hlast) (by decide)

/-- No path stands in a list more than once exactly if none is repeated. -/
theorem repeated_eq_nil_iff {paths : List String} : repeated paths = [] ↔ paths.Nodup := by
  rw [List.eq_nil_iff_forall_not_mem, List.nodup_iff_count_le_one]
  simp only [repeated, Text.mem_sortedDistinct, List.mem_filter, decide_eq_true_eq,
    not_and, Nat.not_lt]
  constructor
  · intro h p
    by_cases hp : p ∈ paths
    · exact h p hp
    · rw [List.count_eq_zero_of_not_mem hp]
      exact Nat.zero_le 1
  · exact fun h p _ => h p

end Validation

/-- Whether the paths of a repository are in order: there are files, and their tidy paths are
distinct and not empty. -/
structure Repository.PathsInOrder (r : Repository) : Prop where
  files_ne_nil : r.files ≠ []
  path_ne_empty : ∀ f ∈ r.files, Path.tidied f.path ≠ ""
  nodup : (r.files.map fun f => Path.tidied f.path).Nodup

/-- If the paths are in order, only the full name and the address can be at fault, in this order. -/
theorem Validation.fault?_of_pathsInOrder {r : Repository} (h : r.PathsInOrder) :
    fault? r =
      if !isAbsentOr isFullName (r.meta "full_name") then some (.fullName (r.meta "full_name"))
      else if !isAbsentOr isUrl (r.meta "url") then some (.url (r.meta "url"))
      else none := by
  have hsome : (r.files.map fun f => Path.tidied f.path).isEmpty = false := by
    simpa using h.files_ne_nil
  have hnonempty : (r.files.map fun f => Path.tidied f.path).any (·.isEmpty) = false := by
    simpa [String.isEmpty_iff] using h.path_ne_empty
  have hdistinct : (!(repeated (r.files.map fun f => Path.tidied f.path)).isEmpty) = false := by
    rw [repeated_eq_nil_iff.2 h.nodup]
    rfl
  simp only [fault?, hsome, hnonempty, hdistinct, Bool.false_eq_true, if_false]

end CodeSurvey
