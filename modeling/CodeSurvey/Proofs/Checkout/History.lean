/-
# Reading a log back

A log is written as records with a mark before each. A record of a commit holds its fields on one
line and its files on the lines after it, and blanks may follow (`History.Entry`). Reading takes a
log apart in the same places: at the marks, as no record holds one (`History.fields_append_logOf`);
at the end of the first line; and at the marks between the fields. The lines of what is left are the
files, since blank lines name none (`History.filesNamed_joinWith`). So each record of a commit gives
that commit (`History.commit?_text`), and other records give nothing: `History.commits_logOf`.
-/

import CodeSurvey.Checkout.History
import CodeSurvey.Proofs.Text

namespace CodeSurvey

open CodeSurvey.Path

namespace History

open Text

/-- What a log holds: the record of a commit with the blanks after it, or another record. -/
inductive Entry
  | commit (c : Commit) (blanks : List Char)
  | other (text : List Char)

namespace Entry

/-- The text of a record after its mark. A commit has its fields on the first line and then each
file on a line of its own. -/
def text : Entry → List Char
  | commit c blanks =>
    joinWith fieldMark ([c.sha, c.author, c.date, c.message].map String.toList) ++
      '\n' :: (joinWith '\n' (c.changed.map String.toList) ++ blanks)
  | other text => text

/-- The commit of a record. -/
def commit? : Entry → Option Commit
  | commit c _ => some c
  | other _ => none

end Entry

/-- A log with some records. -/
def logOf (es : List Entry) : List Char := es.flatMap fun e => recordMark :: e.text

/-- Whether a commit can be told from its record: its hash is not blank, its fields hold
none of the marks and no line feed, and the names of its files are single lines that are
trimmed and not empty. -/
structure IsWritable (c : Commit) : Prop where
  sha : ∃ d ∈ c.sha.toList, isBlank d = false
  fields : ∀ f ∈ [c.sha, c.author, c.date, c.message], '\n' ∉ f.toList ∧ recordMark ∉ f.toList ∧
    fieldMark ∉ f.toList
  changed : ∀ p ∈ c.changed, p ≠ "" ∧ trim p.toList = p.toList ∧ ∀ d ∈ p.toList, isLineEnd d = false

/-- Whether a record is that of a commit that can be told from it, followed by blanks, or has fewer
than three fields on its first line. -/
def Entry.IsProper : Entry → Prop
  | .commit c blanks => IsWritable c ∧ ∀ d ∈ blanks, isBlank d = true ∧ d ≠ recordMark
  | .other text => recordMark ∉ text ∧ (Text.fields fieldMark (cutAt '\n' text).1).length < 3

variable {es : List Entry} {c : Commit} {blanks t : List Char} {files : List String}

/-- The files that lines name. -/
def namedOn (ls : List (List Char)) : List String :=
  (ls.map trim).filterMap fun l => if l.isEmpty then none else some (String.ofList l)

theorem namedOn_cons {l : List Char} {p : String} (hp : p ≠ "") (hl : trim l = p.toList)
    (ls : List (List Char)) : namedOn (l :: ls) = p :: namedOn ls := by
  have hne : ¬p.toList.isEmpty = true := by simpa using hp
  rw [namedOn, List.map_cons, hl, List.filterMap_cons_some (b := p), namedOn]
  rw [if_neg hne, String.ofList_toList]

/-- Blank lines name no file. -/
theorem namedOn_of_blank {ls : List (List Char)} (h : ∀ l ∈ ls, ∀ d ∈ l, isBlank d = true) :
    namedOn ls = [] := by
  rw [namedOn, List.filterMap_map, List.filterMap_eq_nil_iff]
  intro l hl
  rw [Function.comp_apply, trim_of_blank (h l hl)]
  rfl

/-- **The files of a record** stand on a line each, with blanks after the last one. -/
theorem filesNamed_joinWith
    (hfiles : ∀ p ∈ files, p ≠ "" ∧ trim p.toList = p.toList ∧ ∀ d ∈ p.toList, isLineEnd d = false)
    (hblanks : ∀ d ∈ blanks, isBlank d = true) :
    filesNamed (joinWith '\n' (files.map String.toList) ++ blanks) = files := by
  have hlines : ∀ l ∈ lines blanks, ∀ d ∈ l, isBlank d = true :=
    fun l hl d hd => hblanks d (mem_and_isLineEnd_of_mem_lines hl hd).1
  rw [show filesNamed _ = namedOn (lines _) from rfl]
  induction files with
  | nil => exact namedOn_of_blank hlines
  | cons p ps ih =>
    obtain ⟨⟨hp, htrim, hends⟩, hps⟩ := List.forall_mem_cons.1 hfiles
    by_cases hnil : ps = []
    · subst hnil
      have hfirst : ∀ d ∈ (lines blanks).headD [], isBlank d = true := by
        cases h : lines blanks with
        | nil => exact fun d hd => absurd hd List.not_mem_nil
        | cons l ls => exact hlines l (h ▸ List.mem_cons_self ..)
      rw [List.map_singleton, joinWith,
        lines_append_of_not_isLineEnd hends (mt String.toList_eq_nil_iff.1 hp),
        namedOn_cons hp ((trim_append_blanks hfirst _).trans htrim),
        namedOn_of_blank fun l hl => hlines l (List.mem_of_mem_tail hl)]
    · have hmapped : ps.map String.toList ≠ [] := List.map_eq_nil_iff.not.2 hnil
      rw [List.map_cons, joinWith_cons _ hmapped, List.append_assoc, List.cons_append,
        lines_append_lineFeed hends, namedOn_cons hp htrim, ih hps]

theorem IsWritable.not_mem_header (h : IsWritable c) {d : Char} (hd : d = '\n' ∨ d = recordMark) :
    d ∉ joinWith fieldMark ([c.sha, c.author, c.date, c.message].map String.toList) := by
  intro hmem
  rcases mem_of_mem_joinWith hmem with rfl | ⟨x, hx, hmem⟩
  · revert hd
    decide
  · obtain ⟨f, hf, rfl⟩ := List.mem_map.1 hx
    rcases hd with rfl | rfl
    · exact (h.fields f hf).1 hmem
    · exact (h.fields f hf).2.1 hmem

theorem recordMark_not_mem_text {e : Entry} (h : e.IsProper) : recordMark ∉ e.text := by
  cases e with
  | other t => exact h.1
  | commit c blanks =>
    obtain ⟨hc, hblanks⟩ := h
    rw [Entry.text, List.mem_append, List.mem_cons, List.mem_append]
    rintro (hmem | heq | hmem | hmem)
    · exact hc.not_mem_header (.inr rfl) hmem
    · revert heq
      decide
    · rcases mem_of_mem_joinWith hmem with heq | ⟨x, hx, hmem⟩
      · revert heq
        decide
      · obtain ⟨p, hp, rfl⟩ := List.mem_map.1 hx
        have hend := (hc.changed p hp).2.2 recordMark hmem
        revert hend
        decide
    · exact (hblanks recordMark hmem).2 rfl

/-- The records of a log are those that it was made of, after nothing. -/
theorem fields_append_logOf (h : ∀ e ∈ es, e.IsProper) (ht : recordMark ∉ t) :
    Text.fields recordMark (t ++ logOf es) = t :: es.map Entry.text := by
  induction es generalizing t with
  | nil => rw [logOf, List.flatMap_nil, List.append_nil, fields_of_not_mem ht, List.map_nil]
  | cons e es ih =>
    obtain ⟨he, hes⟩ := List.forall_mem_cons.1 h
    rw [logOf, List.flatMap_cons, List.cons_append, fields_append_separator, fields_of_not_mem ht,
      List.singleton_append, List.map_cons]
    exact congrArg (t :: ·) (ih hes (recordMark_not_mem_text he))

/-- **A record gives the commit that it is one of.** -/
theorem commit?_text {e : Entry} (h : e.IsProper) : History.commit? e.text = e.commit? := by
  cases e with
  | other t =>
    have hlength := h.2
    rw [← List.length_map (f := String.ofList)] at hlength
    rw [Entry.text, Entry.commit?, History.commit?]
    split
    · rfl
    · dsimp only
      split
      -- A commit takes three fields at least.
      · rename_i heq
        rw [heq, List.length_cons, List.length_cons, List.length_cons] at hlength
        omega
      · rfl
  | commit c blanks =>
    obtain ⟨hc, hblanks⟩ := h
    obtain ⟨d, hd, hprinted⟩ := hc.sha
    have hfields : Text.fields fieldMark
        (joinWith fieldMark ([c.sha, c.author, c.date, c.message].map String.toList)) =
        [c.sha, c.author, c.date, c.message].map String.toList := by
      refine fields_joinWith (List.cons_ne_nil _ _) fun x hx => ?_
      obtain ⟨f, hf, rfl⟩ := List.mem_map.1 hx
      exact (hc.fields f hf).2.2
    have hblank : ¬(trim (Entry.commit c blanks).text).isEmpty = true := by
      rw [List.isEmpty_iff]
      refine trim_ne_nil (List.mem_append_left _ ?_) hprinted
      exact List.mem_append_left _ hd
    rw [History.commit?, if_neg hblank, Entry.text,
      cutAt_append_cons (hc.not_mem_header (.inl rfl))]
    dsimp only
    rw [hfields, List.map_map, String.ofList_comp_toList, List.map_id, Option.getD_some,
      filesNamed_joinWith hc.changed fun d hd => (hblanks d hd).1]
    rfl

/-- **Reading undoes writing.** A log gives the commits of its records, with all that is written of
them and in order, whatever records of other kinds stand between them; and a log that is put
together of two gives what each of them does. -/
theorem commits_logOf (h : ∀ e ∈ es, e.IsProper) :
    commits (String.ofList (logOf es)) = es.filterMap Entry.commit? ∧
      ∀ a b : String, commits (a ++ "\x1e" ++ b) = commits a ++ commits b := by
  constructor
  · have hfields := fields_append_logOf h List.not_mem_nil
    rw [List.nil_append] at hfields
    have hnothing : History.commit? [] = none := rfl
    rw [commits, String.toList_ofList, hfields, List.filterMap_cons_none hnothing,
      List.filterMap_map]
    exact List.filterMap_congr fun e he => commit?_text (h e he)
  · intro a b
    have htext : (a ++ "\x1e" ++ b).toList = a.toList ++ recordMark :: b.toList := by
      simp [recordMark]
    rw [commits, htext, fields_append_separator, List.filterMap_append, commits, commits]

/-- A log with a record that is none, and two commits with blank lines after the first. -/
def shortLog : List Entry :=
  [.other "garbage\n".toList,
    .commit { sha := "9f", author := "Ada", date := "2024-05-02T10:00:00Z", message := "Add",
              changed := ["a b.py", "c.py"] }
      ['\n', '\n'],
    .other "x\x1fy".toList, .commit { sha := "3c" } []]

theorem commits_logOf_of_short :
    (∀ e ∈ shortLog, e.IsProper) ∧ commits (String.ofList (logOf shortLog)) =
      [{ sha := "9f", author := "Ada", date := "2024-05-02T10:00:00Z", message := "Add",
         changed := ["a b.py", "c.py"] },
        { sha := "3c" }] := by
  have hends : ∀ p ∈ ["a b.py", "c.py"], p.toList.any isLineEnd = false := by decide
  have hnames : ∀ p ∈ ["a b.py", "c.py"], p ≠ "" ∧ trim p.toList = p.toList := by decide
  have h : ∀ e ∈ shortLog, e.IsProper := by
    intro e he
    simp only [shortLog, List.mem_cons, List.not_mem_nil, or_false] at he
    rcases he with rfl | rfl | rfl | rfl
    · exact ⟨by decide, by decide⟩
    · refine ⟨⟨⟨'9', by decide, by decide⟩, by decide, fun p hp => ?_⟩, fun d hd => ?_⟩
      · obtain ⟨hne, htrim⟩ := hnames p hp
        exact ⟨hne, htrim, fun d hd => Bool.eq_false_iff.2 (List.any_eq_false.1 (hends p hp) d hd)⟩
      · obtain rfl : d = '\n' := by simpa using hd
        decide
    · exact ⟨by decide, by decide⟩
    · exact ⟨⟨⟨'3', by decide, by decide⟩, by decide, nofun⟩, nofun⟩
  exact ⟨h, (commits_logOf h).1⟩

end History
end CodeSurvey
