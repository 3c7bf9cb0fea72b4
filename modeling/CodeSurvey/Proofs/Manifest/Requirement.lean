/-
# Requirements and their names

A requirement starts with a name; extras in brackets, a version clause or an address, and a
marker may follow, with blanks between these parts or without (`Requirement`). A version clause
is bare or in parentheses.

The name that is read ends before the first blank and before the first of `<`, `>`, `=`, `!`, `~`,
`;`, `[` and `@`. A parenthesis does not end it, so where a clause in parentheses follows the name
without a blank the opening parenthesis is read with the name (`Requirement.found`). Otherwise the
name itself is read, from a line with a comment (`lineName?_text`) as from an entry of a project
description (`requirementName?_text`).
-/

import CodeSurvey.Manifest
import CodeSurvey.Proofs.Sorting
import CodeSurvey.Proofs.Text

namespace CodeSurvey
namespace Manifest

/-- Blanks, or none. -/
abbrev Blanks := { cs : List Char // ∀ c ∈ cs, Text.isBlank c = true }

/-- A character of a name. -/
def isNameChar (c : Char) : Bool := Text.isAlphanumericAscii c || c == '.' || c == '_' || c == '-'

/-- The name of a distribution. It starts and ends with a letter or digit. -/
structure DistributionName where
  text : List Char
  ne_nil : text ≠ []
  isNameChar : ∀ c ∈ text, isNameChar c = true
  head : ∀ c ∈ text.head?, Text.isAlphanumericAscii c = true
  last : ∀ c ∈ text.getLast?, Text.isAlphanumericAscii c = true

/-- The characters with which a comparison of versions starts. -/
def comparing : List Char := ['<', '>', '=', '!', '~']

/-- What says which version is required, or where it is found. -/
inductive Clause
  | bare (operator : Char) (h : operator ∈ comparing) (rest : List Char)
  | enclosed (gap : Blanks) (operator : Char) (h : operator ∈ comparing) (rest : List Char)
  | address (url : List Char)

/-- The text of a clause. -/
def Clause.text : Clause → List Char
  | bare operator _ rest => operator :: rest
  | enclosed gap operator _ rest => '(' :: (gap.1 ++ operator :: (rest ++ [')']))
  | address url => '@' :: url

/-- Whether a clause stands in parentheses. -/
def Clause.isEnclosed : Clause → Bool
  | enclosed .. => true
  | _ => false

/-- A requirement, with the blanks before its name and behind each part but the last. -/
structure Requirement where
  lead : Blanks
  name : DistributionName
  nameGap : Blanks
  extras : Option (List Char)
  extrasGap : Blanks
  clause : Option Clause
  clauseGap : Blanks
  marker : Option (List Char)

namespace Requirement

/-- What stands behind the name. -/
def tail (r : Requirement) : List Char :=
  r.nameGap.1 ++ (r.extras.elim [] (fun e => '[' :: (e ++ [']'])) ++ (r.extrasGap.1 ++
    (r.clause.elim [] Clause.text ++ (r.clauseGap.1 ++ r.marker.elim [] (';' :: ·)))))

/-- The text of a requirement. -/
def text (r : Requirement) : List Char := r.lead.1 ++ (r.name.text ++ r.tail)

/-- Whether a clause in parentheses follows the name without a blank. -/
def isGlued (r : Requirement) : Bool :=
  r.nameGap.1.isEmpty && r.extras.isNone && r.extrasGap.1.isEmpty && r.clause.any (·.isEnclosed)

/-- What is read as the name. -/
def found (r : Requirement) : List Char := if r.isGlued then r.name.text ++ ['('] else r.name.text

end Requirement

/-- A line of a list of requirements: a requirement, with a comment or without. -/
structure RequirementLine where
  requirement : Requirement
  comment : Option (List Char)

/-- The text of a line. -/
def RequirementLine.text (l : RequirementLine) : List Char :=
  l.requirement.text ++ l.comment.elim [] ('#' :: ·)

section Characters

variable {c : Char}

theorem endsRequirement_of_isBlank (h : Text.isBlank c = true) : endsRequirement c = true := by
  rw [endsRequirement, h, Bool.or_true]

theorem endsRequirement_of_comparing (h : c ∈ comparing) : endsRequirement c = true :=
  List.all_eq_true.1 (by decide : comparing.all endsRequirement = true) c h

/-- No character of a name is blank. -/
theorem isBlank_of_isNameChar (h : isNameChar c = true) : Text.isBlank c = false := by
  simp only [isNameChar, Bool.or_eq_true, beq_iff_eq] at h
  rcases h with ((h | rfl) | rfl) | rfl
  · exact Text.isBlank_of_isWord (Text.isWord_of_isAlphanumericAscii h)
  all_goals decide

/-- No character of a name ends it. -/
theorem endsRequirement_of_isNameChar (h : isNameChar c = true) : endsRequirement c = false := by
  have hmarks : "<>=!~;[@".toList.all (!isNameChar ·) = true := by decide
  rw [endsRequirement, isBlank_of_isNameChar h, Bool.or_false, Bool.eq_false_iff]
  intro hmem
  have hmark := List.all_eq_true.1 hmarks c (List.contains_iff_mem.1 hmem)
  rw [h] at hmark
  cases hmark

/-- Whether a character may be read with a name: it neither ends a name nor starts a comment. -/
def IsStemChar (c : Char) : Prop := endsRequirement c = false ∧ c ≠ '#'

theorem IsStemChar.isBlank (h : IsStemChar c) : Text.isBlank c = false := by
  have hends := h.1
  rw [endsRequirement, Bool.or_eq_false_iff] at hends
  exact hends.2

theorem isStemChar_of_isNameChar (h : isNameChar c = true) : IsStemChar c :=
  ⟨endsRequirement_of_isNameChar h, fun he => absurd (he ▸ h) (by decide)⟩

end Characters

section Reading

variable {lead stem rest : List Char}

/-- What starts a head of a text starts the text. -/
theorem mem_head?_mono {cs ds : List Char} {c : Char} (h : cs <+: ds) (hc : c ∈ cs.head?) :
    c ∈ ds.head? := by
  obtain ⟨more, rfl⟩ := h
  exact List.mem_head?_append_of_mem_head? hc

/-- The name that is read ends where a character ends it. -/
theorem requirementName?_append (hlead : ∀ c ∈ lead, Text.isBlank c = true) (hne : stem ≠ [])
    (hstem : ∀ c ∈ stem, IsStemChar c) (hrest : ∀ c ∈ rest.head?, endsRequirement c = true) :
    requirementName? (lead ++ (stem ++ rest)) = some (String.ofList stem) := by
  have hblank : ∀ c ∈ stem, Text.isBlank c = false := fun c hc => (hstem c hc).isBlank
  have hstops : (Text.trimEnd rest).takeWhile (!endsRequirement ·) = [] := by
    cases hend : Text.trimEnd rest with
    | nil => rfl
    | cons c cs =>
      have hc : endsRequirement c = true :=
        hrest c (mem_head?_mono (List.rdropWhile_prefix Text.isBlank rest) (by
          change c ∈ (Text.trimEnd rest).head?
          rw [hend]
          rfl))
      rw [List.takeWhile_cons_of_neg]
      rw [hc]
      exact Bool.false_ne_true
  have hname : (stem ++ Text.trimEnd rest).takeWhile (!endsRequirement ·) = stem := by
    rw [List.takeWhile_append_of_pos, hstops, List.append_nil]
    intro c hc
    rw [(hstem c hc).1]
    rfl
  have htrim : Text.trim stem = stem :=
    Text.trim_eq_self (fun c hc => hblank c (List.mem_of_mem_head? hc)) fun c hc =>
      hblank c (List.mem_of_getLast? hc)
  rw [requirementName?, Text.trim_append hlead hne hblank, hname, htrim]
  exact if_neg (mt List.isEmpty_iff.1 hne)

/-- The name on a line ends where a character ends it or starts a comment. -/
theorem lineName?_append (hlead : ∀ c ∈ lead, Text.isBlank c = true) (hne : stem ≠ [])
    (hstem : ∀ c ∈ stem, IsStemChar c) (hhead : '-' ∉ stem.head?)
    (hrest : ∀ c ∈ rest.head?, endsRequirement c = true ∨ c = '#') :
    lineName? (lead ++ (stem ++ rest)) = some (String.ofList stem) := by
  have hplain : ∀ c ∈ lead ++ stem, (c != '#') = true := by
    intro c hc
    rw [bne_iff_ne]
    rcases List.mem_append.1 hc with hc | hc
    · rintro rfl
      exact absurd (hlead '#' hc) (by decide)
    · exact (hstem c hc).2
  have hcut : (lead ++ (stem ++ rest)).takeWhile (· != '#') = lead ++
      (stem ++ rest.takeWhile (· != '#')) := by
    rw [← List.append_assoc, List.takeWhile_append_of_pos hplain, List.append_assoc]
  have hblank : ∀ c ∈ stem, Text.isBlank c = false := fun c hc => (hstem c hc).isBlank
  -- What is left behind the name starts as the rest does, which is then no comment.
  have hbefore : ∀ c ∈ (Text.trimEnd (rest.takeWhile (· != '#'))).head?,
      endsRequirement c = true := by
    intro c hc
    have hkept : c ∈ (rest.takeWhile (· != '#')).head? :=
      mem_head?_mono (List.rdropWhile_prefix Text.isBlank _) hc
    have hne' : (c != '#') = true :=
      List.mem_takeWhile_imp (p := (· != '#')) (List.mem_of_mem_head? hkept)
    exact (hrest c (mem_head?_mono (List.takeWhile_prefix _) hkept)).resolve_right
      (bne_iff_ne.1 hne')
  have hoption : (stem ++ Text.trimEnd (rest.takeWhile (· != '#'))).head? = stem.head? :=
    List.head?_append_of_ne_nil stem hne
  have hname : requirementName? ([] ++ (stem ++ Text.trimEnd (rest.takeWhile (· != '#')))) =
      some (String.ofList stem) :=
    requirementName?_append (fun c hc => nomatch hc) hne hstem hbefore
  rw [List.nil_append] at hname
  rw [lineName?, hcut, Text.trim_append hlead hne hblank, hoption, if_neg, hname]
  rw [Bool.or_eq_true, List.isEmpty_iff, beq_iff_eq, not_or]
  exact ⟨fun hnil => hne (List.append_eq_nil_iff.1 hnil).1, hhead⟩

end Reading

/-- Whether a text is empty or starts with a character that ends a name. -/
def EndsName (cs : List Char) : Prop := ∀ c ∈ cs.head?, endsRequirement c = true

theorem endsName_nil : EndsName [] := fun _ h => nomatch h

theorem endsName_cons {c : Char} {cs : List Char} (h : endsRequirement c = true) :
    EndsName (c :: cs) := by
  intro d hd
  rwa [← Option.some.inj hd]

/-- Blanks end a name, and so does what follows them where there are none. -/
theorem EndsName.of_blanks (gap : Blanks) {cs : List Char} (h : gap.1 = [] → EndsName cs) :
    EndsName (gap.1 ++ cs) := by
  obtain ⟨_ | ⟨c, gap⟩, hgap⟩ := gap
  · exact h rfl
  · exact endsName_cons (endsRequirement_of_isBlank (hgap c (List.mem_cons_self ..)))

namespace Requirement

variable (r : Requirement)

theorem isGlued_iff :
    r.isGlued = true ↔ r.nameGap.1 = [] ∧ r.extras = none ∧ r.extrasGap.1 = [] ∧ ∃ c ∈ r.clause,
      c.isEnclosed = true := by
  simp only [isGlued, Bool.and_eq_true, List.isEmpty_iff, Option.isNone_iff_eq_none,
    Option.any_eq_true, and_assoc, Option.mem_def]

/-- Behind the name stands what ends it, unless a clause in parentheses
follows it without a blank. -/
theorem endsName_tail (h : ¬r.isGlued = true) : EndsName r.tail := by
  rw [isGlued_iff] at h
  refine EndsName.of_blanks _ fun hgap => ?_
  cases hextras : r.extras with
  | some e => exact endsName_cons (by decide)
  | none =>
    refine EndsName.of_blanks _ fun hextrasGap => ?_
    cases hclause : r.clause with
    | some clause =>
      cases clause with
      | bare operator hoperator rest => exact endsName_cons (endsRequirement_of_comparing hoperator)
      | enclosed gap operator hoperator rest =>
        exact absurd ⟨hgap, hextras, hextrasGap, _, hclause, rfl⟩ h
      | address url => exact endsName_cons (by decide)
    | none =>
      refine EndsName.of_blanks _ fun _ => ?_
      cases r.marker with
      | none => exact endsName_nil
      | some m => exact endsName_cons (by decide)

/-- A requirement starts with what is read as its name, and then stands what ends it. -/
theorem exists_text_eq : ∃ rest, r.text = r.lead.1 ++ (r.found ++ rest) ∧ EndsName rest := by
  by_cases h : r.isGlued = true
  · obtain ⟨hgap, hextras, hextrasGap, clause, hclause, henclosed⟩ := r.isGlued_iff.1 h
    cases clause with
    | bare => cases henclosed
    | address => cases henclosed
    | enclosed gap operator hoperator rest =>
      refine ⟨gap.1 ++ operator ::
        (rest ++ ')' :: (r.clauseGap.1 ++ r.marker.elim [] (';' :: ·))), ?_,
        EndsName.of_blanks gap fun _ => endsName_cons (endsRequirement_of_comparing hoperator)⟩
      rw [found, if_pos h, text, tail, hgap, hextras, hextrasGap, hclause]
      simp only [Option.elim_none, Option.elim_some, Clause.text, List.nil_append,
        List.append_assoc, List.cons_append]
  · refine ⟨r.tail, ?_, r.endsName_tail h⟩
    rw [found, if_neg h, text]

theorem found_ne_nil : r.found ≠ [] := by
  rw [found]
  split_ifs
  · simp
  · exact r.name.ne_nil

theorem isStemChar_of_mem_found {c : Char} (h : c ∈ r.found) : IsStemChar c := by
  rw [found] at h
  split_ifs at h
  · rcases List.mem_append.1 h with h | h
    · exact isStemChar_of_isNameChar (r.name.isNameChar c h)
    · rw [List.mem_singleton.1 h]
      exact ⟨by decide, by decide⟩
  · exact isStemChar_of_isNameChar (r.name.isNameChar c h)

/-- What is read as the name starts with a letter or digit. -/
theorem head?_found : '-' ∉ r.found.head? := by
  have hname : r.found.head? = r.name.text.head? := by
    rw [found]
    split_ifs
    · exact List.head?_append_of_ne_nil _ r.name.ne_nil
    · rfl
  rw [hname]
  exact fun h => absurd (r.name.head '-' h) (by decide)

/-- The name of a requirement as it stands alone. -/
theorem requirementName?_text : requirementName? r.text = some (String.ofList r.found) := by
  obtain ⟨rest, htext, hrest⟩ := r.exists_text_eq
  rw [htext]
  exact requirementName?_append r.lead.2 r.found_ne_nil (fun _ => r.isStemChar_of_mem_found) hrest

end Requirement

/-- The name of a requirement on a line. -/
theorem lineName?_text (l : RequirementLine) :
    lineName? l.text = some (String.ofList l.requirement.found) := by
  obtain ⟨rest, htext, hrest⟩ := l.requirement.exists_text_eq
  have hcomment : ∀ c ∈ (rest ++ l.comment.elim [] ('#' :: ·)).head?, endsRequirement c = true ∨
      c = '#' := by
    intro c hc
    rw [List.head?_append] at hc
    cases hhead : rest.head? with
    | some d =>
      rw [hhead] at hc
      exact .inl (hrest c (hhead.trans hc))
    | none =>
      rw [hhead] at hc
      cases hl : l.comment with
      | none =>
        rw [hl] at hc
        cases hc
      | some text =>
        rw [hl] at hc
        exact .inr (Option.some.inj hc).symm
  rw [RequirementLine.text, htext, List.append_assoc, List.append_assoc]
  exact lineName?_append l.requirement.lead.2 l.requirement.found_ne_nil
    (fun _ => l.requirement.isStemChar_of_mem_found) l.requirement.head?_found hcomment

/-- The names of requirements, as they are read. -/
def foundNames (rs : List Requirement) : List String := rs.map fun r => String.ofList r.found

/-- The names of requirements, as they are written. -/
def writtenNames (rs : List Requirement) : List String := rs.map fun r => String.ofList r.name.text

/-- Names are read as they are written unless a clause in parentheses
follows one without a blank. -/
theorem foundNames_eq_writtenNames_iff (rs : List Requirement) :
    foundNames rs = writtenNames rs ↔ ∀ r ∈ rs, r.isGlued = false := by
  rw [foundNames, writtenNames, List.map_inj_left]
  refine forall₂_congr fun r _ => ?_
  rw [String.ofList_inj, Requirement.found]
  split_ifs with h
  · simp [h]
  · simp [h]

/-- The names that entries of a project description list. -/
theorem listedNames_texts (rs : List Requirement) :
    listedNames (some (.array (rs.map fun r => .text (String.ofList r.text)))) =
      (foundNames rs).filter (!isPython ·) := by
  rw [listedNames, foundNames, List.filterMap_map]
  congr 1
  refine (List.filterMap_congr fun r _ => ?_).trans (congrFun List.filterMap_eq_map' rs)
  simp only [Function.comp_apply, String.toList_ofList, r.requirementName?_text]

/-- No blanks. -/
def Blanks.none : Blanks := ⟨[], fun _ h => nomatch h⟩

/-- One blank. -/
def Blanks.one : Blanks := ⟨[' '], List.all_eq_true.1 (by decide)⟩

/-- The name `rich`. -/
def sampleName : DistributionName where
  text := "rich".toList
  ne_nil := by decide
  isNameChar := List.all_eq_true.1 (by decide)
  head := (Option.all_eq_true _ _).1 (by decide)
  last := (Option.all_eq_true _ _).1 (by decide)

/-- A requirement of `rich`, as a rule without extras, and with a clause. -/
def sampleRequirement (gap : Blanks) (clause : Clause) : Requirement where
  lead := .none
  name := sampleName
  nameGap := gap
  extras := none
  extrasGap := .none
  clause := some clause
  clauseGap := .none
  marker := none

/-- **Names are read exactly.** From a text whose lines are requirements, with comments or without,
the names are read in order; a project description that lists requirements as its dependencies needs
to run the packages of their names but the language itself, and those of the table of its other
tool. Where a clause in parentheses follows a name without a blank, the opening parenthesis is read
with the name, and nowhere else. -/
theorem names_of_requirements (content : String) :
    (∀ ls : List RequirementLine, Text.lines content.toList = ls.map (·.text) →
        ofRequirements content = foundNames (ls.map (·.requirement)) ∧
          (ofRequirements content = writtenNames (ls.map (·.requirement)) ↔
            ∀ l ∈ ls, l.requirement.isGlued = false)) ∧
      ∀ (readers : Readers) (v : Toml) (rs : List Requirement),
        Toml.read content readers.tomlFits = .ok v →
        (v.tableAt "project").member? "dependencies" =
          some (.array (rs.map fun r => .text (String.ofList r.text))) →
        ∃ l, ofPyproject content readers = .ok l ∧ l.runtime.Pairwise (· < ·) ∧
          ∀ name, name ∈ l.runtime ↔
            (name ∈ foundNames rs ∧ isPython name = false) ∨ name ∈ (poetryListing v).runtime := by
  refine ⟨fun ls hlines => ?_, fun readers v rs hread hdependencies => ?_⟩
  · have hfound : ofRequirements content = foundNames (ls.map (·.requirement)) := by
      rw [ofRequirements, hlines, foundNames, List.filterMap_map, List.map_map]
      exact (List.filterMap_congr fun l _ => lineName?_text l).trans
        (congrFun List.filterMap_eq_map' ls)
    refine ⟨hfound, ?_⟩
    rw [hfound, foundNames_eq_writtenNames_iff, List.forall_mem_map]
  · refine ⟨_, by rw [ofPyproject, hread], Text.pairwise_sortedDistinct _, fun name => ?_⟩
    rw [Text.mem_sortedDistinct, List.mem_append]
    refine or_congr ?_ Iff.rfl
    rw [projectListing, hdependencies, listedNames_texts, List.mem_filter, Bool.not_eq_true']

/-- Of three requirements of one package two are read with its name. -/
theorem names_of_requirements_of_three :
    let glued := sampleRequirement .none (.enclosed .none '>' (by decide) "=13".toList)
    let ls : List RequirementLine :=
      [⟨sampleRequirement .none (.bare '=' (by decide) "=13".toList), some " pinned".toList⟩,
        ⟨sampleRequirement .one (.enclosed .one '>' (by decide) "=13".toList), none⟩, ⟨glued, none⟩]
    let content := "rich==13# pinned\r\nrich ( >=13)\nrich(>=13)"
    let description := "[project]\ndependencies=['rich(>=13)']"
    Text.lines content.toList = ls.map (·.text) ∧
      ofRequirements content = ["rich", "rich", "rich("] ∧ ∃ v l, Toml.read description = .ok v ∧
        (v.tableAt "project").member? "dependencies" =
          some (.array ([glued].map fun r => .text (String.ofList r.text))) ∧
        ofPyproject description = .ok l ∧ ∀ name, name ∈ l.runtime ↔ name = "rich(" := by
  intro glued ls content description
  have hlines : Text.lines content.toList = ls.map (·.text) := by decide +kernel
  have hnames : foundNames (ls.map (·.requirement)) = ["rich", "rich", "rich("] := by decide +kernel
  have hone : foundNames [glued] = ["rich("] := by decide +kernel
  have hpython : isPython "rich(" = false := by decide +kernel
  let v : Toml := .table [("project", .table [("dependencies", .array [.text "rich(>=13)"])])]
  have hread : Toml.read description = .ok v := by decide +kernel
  have hdependencies : (v.tableAt "project").member? "dependencies" =
      some (.array ([glued].map fun r => .text (String.ofList r.text))) := by rfl
  obtain ⟨l, hl, -, hruntime⟩ :=
    (names_of_requirements description).2 {} v [glued] hread hdependencies
  have hread' := ((names_of_requirements content).1 ls hlines).1.trans hnames
  refine ⟨hlines, hread', v, l, hread, hdependencies, hl, fun name => ?_⟩
  have hother : (poetryListing v).runtime = [] := by decide +kernel
  rw [hruntime, hone, hother, List.mem_singleton]
  constructor
  · rintro (⟨h, -⟩ | h)
    · exact h
    · cases h
  · rintro rfl
    exact .inl ⟨rfl, hpython⟩

/-- A parenthesis without a blank before it is read with the name. -/
theorem parenthesis_read_with_name :
    let l : RequirementLine :=
      ⟨sampleRequirement .none (.enclosed .none '>' (by decide) "=13".toList), none⟩
    Text.lines "rich(>=13)\n".toList = [l.text] ∧
      ofRequirements "rich(>=13)\n" ≠ [String.ofList l.requirement.name.text] := by
  decide +kernel

end Manifest
end CodeSurvey
