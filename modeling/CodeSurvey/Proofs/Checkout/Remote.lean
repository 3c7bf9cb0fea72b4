/-
# Remotes that can be surveyed

What is read off the address of a remote has the parts of a web address: a host without slashes and
colons, and an owner and a name of word characters, dots and hyphens (`Remote.ofAddress?_parts`).
The checks before a run are stricter in two ways. They want the owner and the name in ASCII, where
word characters are those of every script, and no blank in the host. A checkout whose paths are in
order can be surveyed exactly if its remote meets this, and otherwise the check that refuses it
names the full name or the address (`Remote.validate_metadata`).
-/

import CodeSurvey.Checkout.Remote
import CodeSurvey.Proofs.Validation

namespace CodeSurvey
namespace Remote

open Pattern

/-- A character of an owner or a name in the address of a remote. -/
def isNameChar (c : Char) : Bool := Text.isWord c || c == '.' || c == '-'

/-- Whether a text can be the owner or the name in the address of a remote. -/
def IsName (w : List Char) : Prop := w ≠ [] ∧ ∀ c ∈ w, isNameChar c = true

/-- Whether a text can be the host in the address of a remote. -/
def IsHost (w : List Char) : Prop := w ≠ [] ∧ ∀ c ∈ w, (c != ':' && c != '/') = true

/-- What the parts of a remote hold. -/
structure HasParts (m : Remote) : Prop where
  host : IsHost m.host.toList
  owner : IsName m.owner.toList
  name : IsName m.name.toList

/-- At the place to which the form of an address leads, the three parts are captured. -/
theorem captured_of_reaches_form {s t : Cursor} (h : form.Reaches s t) (hs : s.captured = []) :
    ∃ host owner name, IsHost host ∧ IsName owner ∧ IsName name ∧
      t.captured = [(3, name), (2, owner), (1, host)] := by
  obtain ⟨s₁, hscheme, s₂, huser, s₃, hhost, s₄, hmark, s₅, howner, s₆, hslash, s₇, hname, s₈,
    hgit, s₉, hlast, rfl, -⟩ := h
  have hwords : (words ["https://", "http://", "ssh://"]).Spells _ :=
    (spells_word _).orElse <| (spells_word _).orElse (spells_word _)
  have hcaptured₁ : s₁.captured = [] := (hwords.optional.captured_eq hscheme).trans hs
  have hcaptured₂ : s₂.captured = [] :=
    (((spells_char _).some1.seq (spells_one '@')).optional.captured_eq huser).trans hcaptured₁
  obtain ⟨host, hhostMem, _, -, rfl⟩ := (reaches_capture_iff (spells_char _).some1).1 hhost
  have hcaptured₄ := (spells_char _).captured_eq hmark
  obtain ⟨owner, hownerMem, _, -, rfl⟩ := (reaches_capture_iff (spells_char _).some1).1 howner
  have hcaptured₆ := (spells_one '/').captured_eq hslash
  obtain ⟨name, hnameMem, _, -, rfl⟩ := (reaches_capture_iff (spells_char _).fewest1).1 hname
  have hcaptured₈ := (spells_word ".git").optional.captured_eq hgit
  have hcaptured₉ := (spells_one '/').optional.captured_eq hlast
  refine ⟨host, owner, name, mem_some_oneOf.1 hhostMem, mem_some_oneOf.1 hownerMem,
    mem_some_oneOf.1 hnameMem, ?_⟩
  rw [hcaptured₉, hcaptured₈, hcaptured₆, hcaptured₄, hcaptured₂]

/-- **What is read off an address** is a host, an owner and a name. -/
theorem ofAddress?_parts {address : String} {m : Remote} (h : ofAddress? address = some m) :
    m.HasParts := by
  obtain ⟨t, ht, h⟩ := Option.bind_eq_some_iff.1 h
  obtain ⟨host, owner, name, hhost, howner, hname, hcaptured⟩ :=
    captured_of_reaches_form (reaches_of_matchStart? ht) rfl
  have hgroups : t.group? 1 = some host ∧ t.group? 2 = some owner ∧ t.group? 3 = some name := by
    simp only [Cursor.group?, hcaptured]
    exact ⟨rfl, rfl, rfl⟩
  rw [hgroups.1, hgroups.2.1, hgroups.2.2] at h
  obtain rfl := Option.some.inj h
  exact ⟨by rwa [String.toList_ofList], by rwa [String.toList_ofList],
    by rwa [String.toList_ofList]⟩

/-- No character of an owner or a name is a slash, a line feed or another blank. -/
theorem isNameChar_separates {c : Char} (h : isNameChar c = true) :
    c ≠ '/' ∧ Text.isBlank c = false := by
  rw [isNameChar, Bool.or_eq_true, Bool.or_eq_true, beq_iff_eq, beq_iff_eq] at h
  rcases h with (h | rfl) | rfl
  · refine ⟨?_, Text.isBlank_of_isWord h⟩
    rintro rfl
    exact absurd h (by decide)
  · decide
  · decide

theorem IsName.slash_not_mem {w : List Char} (h : IsName w) : '/' ∉ w := fun hmem =>
  (isNameChar_separates (h.2 _ hmem)).1 rfl

theorem IsHost.slash_not_mem {w : List Char} (h : IsHost w) : '/' ∉ w := fun hmem => by
  simpa using h.2 _ hmem

/-- Whether the checks before a run accept the parts of a remote: the owner and the name are in
ASCII, and there is no blank in the host. -/
structure IsPlain (m : Remote) : Prop where
  owner : ∀ c ∈ m.owner.toList, Validation.isNameChar c = true
  name : ∀ c ∈ m.name.toList, Validation.isNameChar c = true
  host : ∀ c ∈ m.host.toList, Text.isBlank c = false

variable {m : Remote}

theorem toList_fullName : m.fullName.toList = m.owner.toList ++ '/' :: m.name.toList := by
  simp [fullName]

theorem toList_url :
    m.url.toList = "https://".toList ++
      (m.host.toList ++ '/' :: (m.owner.toList ++ '/' :: m.name.toList)) := by
  simp [url]

/-- The full name is accepted exactly if the owner and the name are in ASCII. -/
theorem isFullName_fullName_iff (h : m.HasParts) :
    Validation.isFullName m.fullName = true ↔
      (∀ c ∈ m.owner.toList, Validation.isNameChar c = true) ∧ ∀ c ∈ m.name.toList,
        Validation.isNameChar c = true := by
  rw [Validation.isFullName_iff, toList_fullName]
  constructor
  · rintro ⟨owner, name, howner, hname, hparts⟩
    have hslash : '/' ∉ owner := howner.slash_not_mem
    rcases hparts with hparts | hparts
    · obtain ⟨rfl, rfl⟩ := Text.append_cons_inj_of_not_mem h.owner.slash_not_mem hslash hparts
      exact ⟨howner.2, hname.2⟩
    · rw [List.append_assoc, List.cons_append] at hparts
      obtain ⟨rfl, hrest⟩ := Text.append_cons_inj_of_not_mem h.owner.slash_not_mem hslash hparts
      have hfeed : '\n' ∈ m.name.toList := by simp [hrest]
      exact absurd (isNameChar_separates (h.name.2 _ hfeed)).2 (by decide)
  · rintro ⟨howner, hname⟩
    exact ⟨_, _, ⟨h.owner.1, howner⟩, ⟨h.name.1, hname⟩, .inl rfl⟩

/-- No blank surrounds the address. -/
theorem trim_url (h : m.HasParts) : Text.trim m.url.toList = m.url.toList := by
  refine Text.trim_eq_self (fun c hc => ?_) fun c hc => ?_
  · rw [toList_url] at hc
    obtain rfl := Option.some.inj hc
    decide
  · have hname : m.url.toList = ("https://" ++ m.host ++ "/" ++ m.owner ++ "/").toList ++
        m.name.toList := by
      simp [url]
    rw [hname, List.getLast?_append_of_ne_nil _ h.name.1] at hc
    exact (isNameChar_separates (h.name.2 c (List.mem_of_getLast? hc))).2

/-- The address is accepted exactly if the owner and the name are in ASCII and there is
no blank in the host. -/
theorem isUrl_url_iff (h : m.HasParts) : Validation.isUrl m.url = true ↔ m.IsPlain := by
  rw [Validation.isUrl_iff, trim_url h, toList_url]
  constructor
  · rintro ⟨host, owner, name, hhost, howner, hname, scheme, hscheme, ending, hending, slash,
      hslash, hparts⟩
    simp only [List.append_assoc, List.cons_append] at hparts
    rcases List.mem_pair.1 hscheme with rfl | rfl
    · -- The address is a secure one.
      cases hparts
    · obtain ⟨rfl, hrest⟩ :=
        Text.append_cons_inj_of_not_mem h.host.slash_not_mem hhost.slash_not_mem
        (List.append_cancel_left hparts)
      obtain ⟨rfl, hlast⟩ :=
        Text.append_cons_inj_of_not_mem h.owner.slash_not_mem howner.slash_not_mem hrest
      refine ⟨howner.2, fun c hc => ?_, fun c hc => ?_⟩
      · rw [hlast, List.mem_append, List.mem_append] at hc
        rcases hc with hc | hc | hc
        · exact hname.2 c hc
        · rcases List.mem_pair.1 hending with rfl | rfl
          · cases hc
          · exact List.all_eq_true.1
              (by decide : ".git".toList.all Validation.isNameChar = true) c hc
        · -- A slash at the end of the address would stand in the name.
          rcases List.mem_pair.1 hslash with rfl | rfl
          · cases hc
          · exact absurd (show '/' ∈ m.name.toList by simp [hlast]) h.name.slash_not_mem
      · simpa using (Bool.and_eq_true_iff.1 (hhost.2 c hc)).2
  · intro hplain
    refine ⟨_, _, _, ⟨h.host.1, fun c hc => ?_⟩, ⟨h.owner.1, hplain.owner⟩, ⟨h.name.1, hplain.name⟩,
      _, List.mem_cons_of_mem _ (List.mem_cons_self ..), [], List.mem_cons_self .., [],
      List.mem_cons_self .., ?_⟩
    · rw [Bool.and_eq_true, hplain.host c hc]
      exact ⟨(Bool.and_eq_true_iff.1 (h.host.2 c hc)).2, rfl⟩
    · simp

/-- **Which remotes can be surveyed.** Take what is read off some address, and a repository that
carries it and whose paths are in order. It can be surveyed exactly if the owner and the name of the
remote are in ASCII and there is no blank in its host. Otherwise its full name is refused, if it is
not in ASCII, or else its address. -/
theorem validate_metadata {address : String} (hremote : ofAddress? address = some m)
    {r : Repository} (hpaths : r.PathsInOrder)
    (hmetadata : ∀ e ∈ m.metadata, r.meta e.1 = .text e.2) :
    (r.validate = .ok () ↔ m.IsPlain) ∧
      (¬ m.IsPlain → r.validate = .error (.invalidRepository
        (if Validation.isFullName m.fullName then .url (.text m.url)
          else .fullName (.text m.fullName)))) := by
  have hparts := ofAddress?_parts hremote
  have hname : r.meta "full_name" = .text m.fullName := hmetadata _ (List.mem_cons_self ..)
  have hurl : r.meta "url" = .text m.url :=
    hmetadata _ (List.mem_cons_of_mem _ (List.mem_cons_self ..))
  have hfault : r.validate =
      if Validation.isFullName m.fullName then
        if Validation.isUrl m.url then .ok () else .error (.invalidRepository (.url (.text m.url)))
      else .error (.invalidRepository (.fullName (.text m.fullName))) := by
    have hroom : 0 < Json.usualRoom := by decide
    rw [Repository.validate, Validation.fault?_of_pathsInOrder hpaths, hname, hurl]
    cases hfull : Validation.isFullName m.fullName <;> cases haddress : Validation.isUrl m.url <;>
      simp [Validation.isAbsentOr, hfull, haddress, Invalid.failure, Invalid.unwritable?,
        Json.unwritable?_text hroom]
  rw [hfault]
  by_cases hplain : m.IsPlain
  · have hfull := (isFullName_fullName_iff hparts).2 ⟨hplain.owner, hplain.name⟩
    rw [if_pos hfull, if_pos ((isUrl_url_iff hparts).2 hplain)]
    exact ⟨⟨fun _ => hplain, fun _ => rfl⟩, fun hnot => absurd hplain hnot⟩
  · have haddress := mt (isUrl_url_iff hparts).1 hplain
    rw [if_neg haddress]
    refine ⟨⟨fun h => ?_, fun h => absurd h hplain⟩, fun _ => ?_⟩
    · split at h <;> cases h
    · split <;> rfl

/-- A repository with one file and the metadata of a remote. -/
def onlyFile (m : Remote) : Repository where
  files := [{ path := "src/app.py" }]
  metadata := m.metadata.map fun e => (e.1, .text e.2)

theorem onlyFile_pathsInOrder (m : Remote) : (onlyFile m).PathsInOrder where
  files_ne_nil := List.cons_ne_nil _ _
  path_ne_empty f hf := by
    obtain rfl := List.mem_singleton.1 hf
    decide
  nodup := List.nodup_singleton _

theorem meta_onlyFile (m : Remote) : ∀ e ∈ m.metadata, (onlyFile m).meta e.1 = .text e.2 := by
  intro e he
  rcases List.mem_pair.1 he with rfl | rfl <;> rfl

/-- The short form of an address, with a name in ASCII, can be surveyed. -/
theorem validate_metadata_of_short_form :
    let m : Remote := ⟨"gitlab.com", "acme", "widgets.js"⟩
    ofAddress? "git@gitlab.com:acme/widgets.js.git" = some m ∧ (onlyFile m).validate = .ok () := by
  intro m
  have hremote : ofAddress? "git@gitlab.com:acme/widgets.js.git" = some m := by decide +kernel
  have hhost : m.host.toList.all (!Text.isBlank ·) = true := by decide
  have hplain : m.IsPlain :=
    { owner := List.all_eq_true.1 (by decide)
      name := List.all_eq_true.1 (by decide)
      host := fun c hc => by simpa using List.all_eq_true.1 hhost c hc }
  exact ⟨hremote, (validate_metadata hremote (onlyFile_pathsInOrder m)
    (meta_onlyFile m)).1.2 hplain⟩

/-- A checkout is refused for its own remote, whose owner has letters that are not in ASCII. -/
theorem refused_for_own_remote :
    let m : Remote := ⟨"github.com", "größe", "repo"⟩
    ofAddress? "https://github.com/größe/repo.git" = some m ∧ (onlyFile m).PathsInOrder ∧
      (∀ e ∈ m.metadata, (onlyFile m).meta e.1 = .text e.2) ∧
      (onlyFile m).validate = .error (.invalidRepository (.fullName (.text "größe/repo"))) := by
  intro m
  refine ⟨?_, onlyFile_pathsInOrder m, meta_onlyFile m, ?_⟩
  · unfold ofAddress? form
    simp only [Text.isWord, Text.inRuns_eq_foldl]
    decide +kernel
  · have hrefused : Validation.isFullName "größe/repo" = false := by decide +kernel
    rw [Repository.validate, Validation.fault?_of_pathsInOrder (onlyFile_pathsInOrder m),
      meta_onlyFile m ("full_name", "größe/repo") (List.mem_cons_self ..),
      Validation.isAbsentOr, hrefused]
    rfl

end Remote
end CodeSurvey
