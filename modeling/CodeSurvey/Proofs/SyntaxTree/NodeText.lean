/-
# The text of a node

A node spans bytes of the source, and its offsets may fall within a character. Its text is what lies
whole between them (`SyntaxTree.toList_textIn`): a character that an offset cuts is left out, and no
other. So the text of a node between two boundaries of characters is that part of the source, and at
a boundary the text of a node falls into the texts of two (`SyntaxTree.textIn_exact`).
-/

import CodeSurvey.Parsing
import CodeSurvey.Proofs.Outcome
import CodeSurvey.Proofs.Text.Utf8

namespace CodeSurvey

open Utf8

/-- A parse, clean or not, keeps the encoding of the text. -/
theorem Parser.source_of_parse {p : Parser} {path content : String} {parsed : Parsed}
    (h : p.parse path content = .ok parsed) : parsed.source = encode content := by
  rw [parse] at h
  split at h
  · cases h
  · obtain ⟨-, -, h⟩ := Outcome.bind_eq_ok.1 h
    obtain ⟨t, -, h⟩ := Outcome.bind_eq_ok.1 h
    dsimp only at h
    split at h <;>
    · cases h
      rfl

namespace SyntaxTree

/-- Whether a tree spans the bytes from one offset up to another. -/
def Spans (t : SyntaxTree) (start stop : Nat) : Prop := t.label.start = start ∧ t.label.stop = stop

/-- The characters in the text of a node are those of the source that lie
whole between its offsets. -/
theorem toList_textIn (source : String) (t : SyntaxTree) :
    (t.textIn (encode source)).toList = charsWithin t.label.start t.label.stop source.toList := by
  rw [textIn, sliceText, ← List.drop_take]
  exact chars_slice source.toList t.label.start t.label.stop

/-- **The text of a node.** A parse keeps the encoding of the source, and in it the text of a
node has the characters of the source that lie whole between the start of the node and its
stop, or the end of the source. Between two boundaries of characters it is the part of the
source that stands there; and where a boundary divides a node into two, it is the text of the
first and then that of the second. -/
theorem textIn_exact (source : String) :
    (∀ (p : Parser) (path : String) (parsed : Parsed), p.parse path source = .ok parsed →
      parsed.source = encode source) ∧
    (∀ t : SyntaxTree, (t.textIn (encode source)).toList =
      charsWithin t.label.start (min t.label.stop (encode source).length) source.toList) ∧
    (∀ (t : SyntaxTree) (start stop : Nat), t.Spans start stop → start ≤ stop →
      IsBoundary source.toList start → IsBoundary source.toList stop →
      ∃ before after, source.toList = before ++ (t.textIn (encode source)).toList ++ after ∧
        byteCount before = start ∧ byteCount (before ++ (t.textIn (encode source)).toList) = stop) ∧
    ∀ (t first second : SyntaxTree) (start middle stop : Nat), t.Spans start stop →
      first.Spans start middle →
      second.Spans middle stop → start ≤ middle → middle ≤ stop → IsBoundary source.toList middle →
      t.textIn (encode source) = first.textIn (encode source) ++ second.textIn (encode source) := by
  refine ⟨fun _ _ _ => Parser.source_of_parse, fun t => ?_, ?_, ?_⟩
  · rw [toList_textIn]
    exact (charsWithin_min _ _ _).symm
  · rintro t start stop ⟨rfl, rfl⟩ hle hstart hstop
    obtain ⟨before, inner, after, hsource, hbefore, hinner⟩ := hstart.exists_between hstop hle
    have htext : (t.textIn (encode source)).toList = inner := by
      rw [toList_textIn, hsource, ← hbefore, ← hinner, charsWithin_part]
    rw [htext]
    exact ⟨before, after, hsource, hbefore, hinner⟩
  · rintro t first second start middle stop ⟨rfl, rfl⟩ ⟨hfirst, rfl⟩ ⟨hsecond,
      hstop⟩ hle hle' hboundary
    rw [← String.toList_inj, String.toList_append, toList_textIn, toList_textIn, toList_textIn,
      hfirst, hsecond, hstop]
    exact charsWithin_split hboundary hle hle'

/-- Of four characters, a node cuts the second and the last; it is divided behind the second,
and the third is a node. -/
theorem textIn_exact_of_cut_characters :
    let source := "né=😀"
    let root : SyntaxTree := .node { kind := "module", start := 0, stop := 8 } []
    let p : Parser := { tree := fun _ _ => .ok root }
    let t : SyntaxTree := .node { kind := "ERROR", start := 2, stop := 6 } []
    let first : SyntaxTree := .node { kind := "ERROR", start := 2, stop := 3 } []
    let second : SyntaxTree := .node { kind := "ERROR", start := 3, stop := 6 } []
    let sign : SyntaxTree := .node { kind := "=", start := 3, stop := 4 } []
    (∃ parsed, p.parse "a.py" source = .ok parsed ∧ parsed.source = encode source) ∧
    (IsBoundary source.toList 3 ∧ IsBoundary source.toList 4 ∧
      ∃ before after, source.toList = before ++ (sign.textIn (encode source)).toList ++ after ∧
        byteCount before = 3 ∧ byteCount (before ++ (sign.textIn (encode source)).toList) = 4) ∧
    t.textIn (encode source) = first.textIn (encode source) ++ second.textIn (encode source) ∧
    (t.textIn (encode source)).toList = ['='] := by
  intro source root p t first second sign
  obtain ⟨hsource, hchars, hpart, hsplit⟩ := textIn_exact source
  have hgrammar : p.grammarFor? "a.py" = some "python" := by decide +kernel
  have hparse : p.parse "a.py" source = .ok ⟨"python", encode source, .ok root⟩ := by
    rw [Parser.parse, hgrammar]
    rfl
  have hthree : IsBoundary source.toList 3 := ⟨['n', 'é'], ['=', '😀'], by decide, by decide⟩
  have hfour : IsBoundary source.toList 4 := ⟨['n', 'é', '='], ['😀'], by decide, by decide⟩
  refine ⟨⟨_, hparse, hsource p _ _ hparse⟩,
    ⟨hthree, hfour, hpart sign 3 4 ⟨rfl, rfl⟩ (by decide) hthree hfour⟩, ?_, ?_⟩
  · exact hsplit t first second 2 3 6 ⟨rfl, rfl⟩ ⟨rfl, rfl⟩ ⟨rfl,
      rfl⟩ (by decide) (by decide) hthree
  · exact (hchars t).trans (by decide)

end SyntaxTree
end CodeSurvey
