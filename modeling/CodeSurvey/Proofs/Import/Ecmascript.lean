/-
# Imports printed one on a line

Statements that import a module, as JavaScript and TypeScript write them on one line: `import 'S';`,
`import C from 'S';`, `export C from 'S';`, and a constant for a call of `require` or `import`. What
is found in a text of such statements is the specifier of each one, in order, on its line
(`Ecmascript.extract_printed`), whatever words the clauses and the specifiers are made of: a pass
finds a statement of its own form where its keyword stands and nothing on a line of another form
(`Ecmascript.Statement.findsOn`).
-/

import CodeSurvey.Proofs.Import.Quoted
import Mathlib.Data.Bool.AllAny

namespace CodeSurvey
namespace FromText
namespace Ecmascript

open Pattern Text

/-- Whether a text can stand between the keyword of an import and `from`. -/
structure IsClause (cs : List Char) : Prop where
  ne_nil : cs ≠ []
  isClauseChar : ∀ c ∈ cs, isClauseChar c = true
  not_mem : '\n' ∉ cs

/-- What stands around the quoted specifier of an import. -/
inductive Form
  | bare
  | importing (clause : List Char) (isClause : IsClause clause)
  | exporting (clause : List Char) (isClause : IsClause clause)
  | requiring
  | loading

/-- The passes that look for imports of JavaScript and TypeScript. -/
inductive Pass
  | static
  | dynamic
  | require
  deriving DecidableEq

namespace Pass

/-- What a pass looks for. -/
def finder : Pass → Finder
  | static => .single staticImport .static
  | dynamic => .single (loadCall "import") .dynamic
  | require => .single (loadCall "require") .require

end Pass

theorem ecmascriptReferences_eq (cs : List Char) :
    ecmascriptReferences cs = [Pass.static, .dynamic, .require].flatMap fun k =>
      k.finder.references cs := by
  simp only [ecmascriptReferences, Pass.finder, List.flatMap_cons, List.flatMap_nil,
    Finder.references_single, List.append_assoc, List.append_nil]

namespace Form

/-- What stands before the keyword. -/
def lead : Form → List Char
  | requiring | loading => "const x = ".toList
  | _ => []

/-- The keyword and what follows it, up to the quoted specifier. -/
def keyword : Form → List Char
  | bare => "import ".toList
  | importing clause _ => "import ".toList ++ (clause ++ " from ".toList)
  | exporting clause _ => "export ".toList ++ (clause ++ " from ".toList)
  | requiring => "require(".toList
  | loading => "import(".toList

/-- What follows the quoted specifier. -/
def closing : Form → List Char
  | requiring | loading => ");".toList
  | _ => ";".toList

/-- The pass that finds imports of a form. -/
def pass : Form → Pass
  | requiring => .require
  | loading => .dynamic
  | _ => .static

/-- The way of importing that a form stands for. -/
def kind : Form → ImportKind
  | bare | importing .. | exporting .. => .static
  | requiring => .require
  | loading => .dynamic

theorem kind_pass (f : Form) : f.pass.finder.kind = f.kind := by cases f <;> rfl

end Form

section Leads

/-- The texts that lead up to the specifier of a static import. -/
def staticLead : Language Char :=
  [{"import".toList} + {"export".toList}, oneOf isBlank * KStar.kstar (oneOf isBlank),
    [oneOf isClauseChar * KStar.kstar (oneOf isClauseChar),
      oneOf isBlank * KStar.kstar (oneOf isBlank), {"from".toList},
      oneOf isBlank * KStar.kstar (oneOf isBlank)].prod + 1].prod

/-- The texts that lead up to the argument of a call. -/
def callLead (name : String) : Language Char :=
  [{name.toList}, KStar.kstar (oneOf isBlank), {['(']}, KStar.kstar (oneOf isBlank)].prod

/-- The texts that follow the argument of a call. -/
def callEnd : Language Char := [KStar.kstar (oneOf isBlank), {[')']}].prod

theorem spells_blanks1 : blanks1.Spells (oneOf isBlank * KStar.kstar (oneOf isBlank)) :=
  (spells_char isBlank).some1

theorem spells_blanks : blanks.Spells (KStar.kstar (oneOf isBlank)) := (spells_char isBlank).many

/-- A static import is a quoted specifier behind what leads up to it. -/
theorem spells_staticLead : (all [words ["import", "export"], blanks1,
    optional (all [fewest1 (char isClauseChar), blanks1, word "from", blanks1])]).Spells
      staticLead :=
  .all (.cons ((spells_word "import").orElse (spells_word "export"))
    (.cons spells_blanks1 (.cons (.optional (.all
    (.cons (spells_char isClauseChar).fewest1 (.cons spells_blanks1 (.cons (spells_word "from")
      (.cons spells_blanks1 .nil)))))) .nil)))

theorem spells_callLead (name : String) :
    (all [word name, blanks, one '(', blanks]).Spells (callLead name) :=
  .all (.cons (spells_word name)
    (.cons spells_blanks (.cons (spells_one '(') (.cons spells_blanks .nil))))

theorem spells_callEnd : (all [blanks, one ')']).Spells callEnd :=
  .all (.cons spells_blanks (.cons (spells_one ')') .nil))

theorem isQuote_eq_false_of_isClauseChar {c : Char} (h : isClauseChar c = true) :
    isQuote c = false := by
  rw [Bool.eq_false_iff]
  intro hquote
  simp only [isQuote, Bool.or_eq_true, beq_iff_eq, or_assoc] at hquote
  rcases hquote with rfl | rfl | rfl
  all_goals exact absurd h (by decide)

theorem isClauseChar_of_isBlank {c : Char} (h : isBlank c = true) : isClauseChar c = true := by
  simp [isClauseChar, h]

/-- What leads up to the specifier of a static import is made of the characters of clauses. -/
theorem of_mem_staticLead {v : List Char} (h : v ∈ staticLead) :
    v.head?.any isWord = true ∧ ∀ c ∈ v, isClauseChar c = true := by
  obtain ⟨k, hk, v₁, hv₁, rfl⟩ := Language.mem_mul.1 h
  obtain ⟨b, hb, v₂, hv₂, rfl⟩ := Language.mem_mul.1 hv₁
  obtain ⟨f, hf, _, rfl, rfl⟩ := Language.mem_mul.1 hv₂
  have hblank : ∀ {b : List Char}, b ∈ oneOf isBlank * KStar.kstar (oneOf isBlank) →
      ∀ c ∈ b, isClauseChar c = true :=
    fun hb c hc => isClauseChar_of_isBlank ((mem_some_oneOf.1 hb).2 c hc)
  have hkeyword : k.head?.any isWord = true ∧ ∀ c ∈ k, isClauseChar c = true := by
    rcases hk with rfl | rfl
    all_goals exact ⟨by decide +kernel, List.all_iff_forall_prop.1 (by decide +kernel)⟩
  have hfrom : ∀ c ∈ f, isClauseChar c = true := by
    rcases hf with hf | rfl
    · obtain ⟨x, hx, f₁, hf₁, rfl⟩ := Language.mem_mul.1 hf
      obtain ⟨y, hy, f₂, hf₂, rfl⟩ := Language.mem_mul.1 hf₁
      obtain ⟨_, rfl, f₃, hf₃, rfl⟩ := Language.mem_mul.1 hf₂
      obtain ⟨z, hz, _, rfl, rfl⟩ := Language.mem_mul.1 hf₃
      have hword : ∀ c ∈ "from".toList, isClauseChar c = true :=
        List.all_iff_forall_prop.1 (by decide +kernel)
      simp only [List.forall_mem_append]
      exact ⟨(mem_some_oneOf.1 hx).2, hblank hy, hword, hblank hz,
        fun c hc => absurd hc List.not_mem_nil⟩
    · exact fun c hc => absurd hc List.not_mem_nil
  refine ⟨?_, ?_⟩
  · rcases k with _ | ⟨c, k⟩
    · cases hkeyword.1
    · exact hkeyword.1
  · simp only [List.forall_mem_append]
    exact ⟨hkeyword.2, hblank hb, hfrom, fun c hc => absurd hc List.not_mem_nil⟩

/-- What leads up to the argument of a call: its name, and a parenthesis,
with blanks behind each. -/
theorem mem_callLead_iff {name : String} {v : List Char} : v ∈ callLead name ↔
    ∃ a b, (∀ c ∈ a, isBlank c = true) ∧ (∀ c ∈ b, isBlank c = true) ∧
      v = name.toList ++ (a ++ '(' :: b) := by
  constructor
  · intro h
    obtain ⟨_, rfl, v₁, hv₁, rfl⟩ := Language.mem_mul.1 h
    obtain ⟨a, ha, v₂, hv₂, rfl⟩ := Language.mem_mul.1 hv₁
    obtain ⟨_, rfl, v₃, hv₃, rfl⟩ := Language.mem_mul.1 hv₂
    obtain ⟨b, hb, _, rfl, rfl⟩ := Language.mem_mul.1 hv₃
    exact ⟨a, b, mem_kstar_oneOf.1 ha, mem_kstar_oneOf.1 hb, by simp⟩
  · rintro ⟨a, b, ha, hb, rfl⟩
    refine Language.append_mem_mul rfl (Language.append_mem_mul (mem_kstar_oneOf.2 ha) ?_)
    refine Language.append_mem_mul (a := ['(']) rfl ?_
    exact Language.mem_mul.2 ⟨b, mem_kstar_oneOf.2 hb, [], rfl, List.append_nil b⟩

theorem leadsUp_staticLead : QuotedLine.LeadsUp staticLead := fun _ hv =>
  ⟨(of_mem_staticLead hv).1,
    fun c hc => isQuote_eq_false_of_isClauseChar ((of_mem_staticLead hv).2 c hc)⟩

theorem leadsUp_callLead {name : String} (hname : name.toList.head?.any isWord = true)
    (hword : ∀ c ∈ name.toList, isClauseChar c = true) : QuotedLine.LeadsUp (callLead name) := by
  intro v hv
  obtain ⟨a, b, ha, hb, rfl⟩ := mem_callLead_iff.1 hv
  have hparenthesis : isQuote '(' = false := by decide
  have hblank : ∀ {b : List Char}, (∀ c ∈ b, isBlank c = true) → ∀ c ∈ b, isQuote c = false :=
    fun hb c hc => isQuote_eq_false_of_isClauseChar (isClauseChar_of_isBlank (hb c hc))
  refine ⟨?_, ?_⟩
  · generalize name.toList = cs at hname
    rcases cs with _ | ⟨c, cs⟩
    · cases hname
    · exact hname
  · simp only [List.forall_mem_append, List.forall_mem_cons]
    exact ⟨fun c hc => isQuote_eq_false_of_isClauseChar (hword c hc), hblank ha,
      hparenthesis, hblank hb⟩

/-- After the argument of a call the first parenthesis ends what belongs to the call. -/
theorem eq_of_mem_callEnd {z r : List Char} (hz : z ∈ callEnd) (h : z <+: ')' :: r) :
    z = [')'] := by
  obtain ⟨b, hb, z₁, hz₁, rfl⟩ := Language.mem_mul.1 hz
  obtain ⟨_, rfl, _, rfl, rfl⟩ := Language.mem_mul.1 hz₁
  have hblank := mem_kstar_oneOf.1 hb
  rcases b with _ | ⟨c, b⟩
  · rfl
  · obtain ⟨rfl, -⟩ := List.cons_prefix_cons.1 h
    exact absurd (hblank ')' (List.mem_cons_self ..)) (by decide)

theorem mem_callEnd : [')'] ∈ callEnd :=
  Language.mem_mul.2 ⟨[], Language.nil_mem_kstar _, [')'],
    Language.mem_mul.2 ⟨[')'], rfl, [], rfl, rfl⟩, rfl⟩

end Leads

namespace Form

variable {f : Form}

theorem lead_of_static (h : f.pass = .static) : f.lead = [] := by
  cases f with
  | bare | importing | exporting => rfl
  | requiring | loading => cases h

/-- A static import is written with characters of clauses before its specifier. -/
theorem isClauseChar_of_static (h : f.pass = .static) : ∀ c ∈ f.keyword, isClauseChar c = true := by
  have hfrom : ∀ c ∈ " from ".toList, isClauseChar c = true :=
    List.all_iff_forall_prop.1 (by decide +kernel)
  have himport : ∀ c ∈ "import ".toList, isClauseChar c = true :=
    List.all_iff_forall_prop.1 (by decide +kernel)
  have hexport : ∀ c ∈ "export ".toList, isClauseChar c = true :=
    List.all_iff_forall_prop.1 (by decide +kernel)
  cases f with
  | bare => exact himport
  | importing clause hclause =>
    exact List.forall_mem_append.2 ⟨himport, List.forall_mem_append.2 ⟨hclause.isClauseChar, hfrom⟩⟩
  | exporting clause hclause =>
    exact List.forall_mem_append.2 ⟨hexport, List.forall_mem_append.2 ⟨hclause.isClauseChar, hfrom⟩⟩
  | requiring => cases h
  | loading => cases h

/-- A static import is written with what leads up to a specifier. -/
theorem mem_staticLead (h : f.pass = .static) : f.keyword ∈ staticLead := by
  have hspace : [' '] ∈ oneOf isBlank * KStar.kstar (oneOf isBlank) :=
    mem_some_oneOf.2 ⟨by decide, List.forall_mem_singleton.2 (by decide)⟩
  have himport : "import ".toList = "import".toList ++ [' '] := rfl
  have hexport : "export ".toList = "export".toList ++ [' '] := rfl
  have hfrom : " from ".toList = [' '] ++ ("from".toList ++ ([' '] ++ [])) := rfl
  have hclauses : ∀ {clause : List Char}, IsClause clause → clause ++ " from ".toList ∈
      [oneOf isClauseChar * KStar.kstar (oneOf isClauseChar),
        oneOf isBlank * KStar.kstar (oneOf isBlank), {"from".toList},
        oneOf isBlank * KStar.kstar (oneOf isBlank)].prod := by
    intro clause hclause
    rw [hfrom]
    exact Language.append_mem_mul (mem_some_oneOf.2 ⟨hclause.ne_nil, hclause.isClauseChar⟩)
      (Language.append_mem_mul hspace
        (Language.append_mem_mul rfl (Language.append_mem_mul hspace rfl)))
  have hlead : ∀ {k v : List Char}, k ∈ ({"import".toList} + {"export".toList} : Language Char) →
      v ∈ [oneOf isClauseChar * KStar.kstar (oneOf isClauseChar),
        oneOf isBlank * KStar.kstar (oneOf isBlank),
        {"from".toList}, oneOf isBlank * KStar.kstar (oneOf isBlank)].prod + 1 →
          k ++ [' '] ++ v ∈ staticLead := by
    intro k v hk hv
    rw [List.append_assoc]
    exact Language.append_mem_mul hk
      (Language.append_mem_mul hspace (Language.mem_mul.2 ⟨v, hv, [], rfl, List.append_nil v⟩))
  cases f with
  | bare =>
    show "import ".toList ∈ staticLead
    rw [himport, ← List.append_nil ("import".toList ++ [' '])]
    exact hlead (.inl rfl) (.inr rfl)
  | importing clause hclause =>
    show "import ".toList ++ (clause ++ " from ".toList) ∈ staticLead
    rw [himport]
    exact hlead (.inl rfl) (.inl (hclauses hclause))
  | exporting clause hclause =>
    show "export ".toList ++ (clause ++ " from ".toList) ∈ staticLead
    rw [hexport]
    exact hlead (.inr rfl) (.inl (hclauses hclause))
  | requiring => cases h
  | loading => cases h

/-- Before the argument of a call stands a parenthesis. -/
theorem exists_keyword_of_call (h : f.pass ≠ .static) : ∃ k, f.keyword = k ++ ['('] := by
  cases f with
  | bare | importing | exporting => exact absurd rfl h
  | requiring => exact ⟨"require".toList, rfl⟩
  | loading => exact ⟨"import".toList, rfl⟩

end Form

/-- A statement that imports a module, on one line. -/
structure Statement where
  form : Form
  quote : Char
  specifier : List Char
  isQuote_quote : isQuote quote = true
  isSpecifier : IsSpecifier specifier

namespace Statement

variable {s : Statement}

/-- The line of a statement: its one quoted text, what stands before it and behind it. -/
def line (s : Statement) : QuotedLine where
  opening := s.form.lead ++ s.form.keyword
  quote := s.quote
  specifier := s.specifier
  closing := s.form.closing
  isQuote_quote := s.isQuote_quote
  isSpecifier := s.isSpecifier
  opening_unquoted := by
    cases hform : s.form with
    | bare | importing | exporting =>
      intro c hc
      have hstatic : s.form.pass = .static := by rw [hform]; rfl
      rw [← hform, Form.lead_of_static hstatic] at hc
      exact isQuote_eq_false_of_isClauseChar (Form.isClauseChar_of_static hstatic c hc)
    | requiring | loading => exact List.all_iff_forall_prop.1 (by decide)
  closing_unquoted := by
    have hend : ∀ c ∈ ";".toList, isQuote c = false ∧ isWord c = false :=
      List.all_iff_forall_prop.1 (by decide)
    have hcall : ∀ c ∈ ");".toList, isQuote c = false ∧ isWord c = false :=
      List.all_iff_forall_prop.1 (by decide)
    cases s.form with
    | bare | importing | exporting => exact hend
    | requiring | loading => exact hcall

/-- What a pass finds on the line of a statement: the specifier, if the pass is that of the form. -/
def found (k : Pass) (s : Statement) : List Hit :=
  if s.form.pass = k then [⟨s.form.lead.length, [(1, s.specifier)]⟩] else []

/-- A static import is found where its keyword stands. -/
theorem findsOn_static (h : s.form.pass = .static) :
    staticImport.FindsOn s.line.text (found .static s) := by
  have hopening : s.line.opening = [] ++ s.form.keyword := by
    show s.form.lead ++ s.form.keyword = _
    rw [Form.lead_of_static h]
  rw [found, if_pos h, Form.lead_of_static h]
  exact QuotedLine.findsOn_singleton (l := s.line) spells_staticLead spells_nothing
    leadsUp_staticLead hopening
    (Form.mem_staticLead h) rfl (fun _ _ _ _ => Nat.zero_le _)
      (List.nil_append _).symm rfl fun _ _ hz _ => hz

/-- On the line of a call no static import is found. -/
theorem findsOn_static_of_call (h : s.form.pass ≠ .static) :
    staticImport.FindsOn s.line.text (found .static s) := by
  rw [found, if_neg h]
  refine QuotedLine.findsOn_nil (l := s.line) spells_staticLead spells_nothing leadsUp_staticLead
    fun x v hopening hv => ?_
  obtain ⟨hword, hclause⟩ := of_mem_staticLead hv
  obtain ⟨k, hk⟩ := Form.exists_keyword_of_call h
  -- The parenthesis at the end of the opening is no character of a static import.
  have hlast : v.getLast? = some '(' := by
    have hends : (x ++ v).getLast? = some '(' := by
      rw [← hopening]
      show (s.form.lead ++ s.form.keyword).getLast? = _
      rw [hk, ← List.append_assoc, List.getLast?_concat]
    rcases eq_or_ne v [] with rfl | hne
    · cases hword
    · rwa [List.getLast?_append_of_ne_nil _ hne] at hends
  exact absurd (hclause '(' (List.mem_of_getLast? hlast)) (by decide)

/-- In a line without the name of a call before a parenthesis the call is not found. -/
theorem findsOn_loadCall_nil {name : String} (hname : QuotedLine.LeadsUp (callLead name))
    (hopening : ∀ x v, s.line.opening = x ++ v → ¬(name.toList <+: v ∧ '(' ∈ v)) :
    (loadCall name).FindsOn s.line.text [] := by
  refine QuotedLine.findsOn_nil (l := s.line) (spells_callLead name) spells_callEnd hname
    fun x v hxv hv => ?_
  obtain ⟨a, b, -, -, rfl⟩ := mem_callLead_iff.1 hv
  refine hopening x _ hxv ⟨List.prefix_append _ _, ?_⟩
  simp

/-- On the line of a static import no call is found. -/
theorem findsOn_loadCall_of_static {name : String} (hname : QuotedLine.LeadsUp (callLead name))
    (h : s.form.pass = .static) : (loadCall name).FindsOn s.line.text [] := by
  refine findsOn_loadCall_nil hname fun x v hxv hv => ?_
  have hmem : '(' ∈ s.form.keyword := by
    have hopening : s.form.lead ++ s.form.keyword = x ++ v := hxv
    rw [Form.lead_of_static h, List.nil_append] at hopening
    rw [hopening]
    exact List.mem_append_right x hv.2
  exact absurd (Form.isClauseChar_of_static h '(' hmem) (by decide)

/-- A call is found where its name stands, if that is the only place in the opening of
the line where it could. -/
theorem findsOn_loadCall {name : String} (hname : QuotedLine.LeadsUp (callLead name))
    (hkeyword : s.form.keyword = name.toList ++ ['('])
    (hlead : s.form.lead.getLast?.any isWord = false) (hclosing : s.form.closing = [')', ';'])
    (hfirst : ∀ n < s.form.lead.length, name.toList.isPrefixOf (s.line.opening.drop n) = false) :
    (loadCall name).FindsOn s.line.text [⟨s.form.lead.length, [(1, s.specifier)]⟩] := by
  have hopening : s.line.opening = s.form.lead ++ s.form.keyword := rfl
  refine QuotedLine.findsOn_singleton (l := s.line) (z := [')']) (c := [';'])
    (spells_callLead name) spells_callEnd hname
    hopening (hkeyword ▸ mem_callLead_iff.2 ⟨[], [], by simp, by simp, rfl⟩) hlead ?_ hclosing
      mem_callEnd ?_
  · intro x v hxv hv
    by_contra hlt
    obtain ⟨a, b, -, -, rfl⟩ := mem_callLead_iff.1 hv
    have hprefix := hfirst x.length (by omega)
    rw [hxv, List.drop_left, Bool.eq_false_iff] at hprefix
    exact hprefix (List.isPrefixOf_iff_prefix.2 (List.prefix_append _ _))
  · intro tail z hz hprefix
    refine eq_of_mem_callEnd hz (r := ';' :: tail) ?_
    show z <+: [')', ';'] ++ tail
    rwa [← hclosing]

/-- On a line that does not name a call before its specifier the call is not found. -/
theorem findsOn_loadCall_of_other {name : String} (hname : QuotedLine.LeadsUp (callLead name))
    (hother : ∀ n ≤ s.line.opening.length, name.toList.isPrefixOf (s.line.opening.drop n) = false) :
    (loadCall name).FindsOn s.line.text [] := by
  refine findsOn_loadCall_nil hname fun x v hxv hv => ?_
  have hprefix := hother x.length (by rw [hxv, List.length_append]; omega)
  rw [hxv, List.drop_left, Bool.eq_false_iff] at hprefix
  exact hprefix (List.isPrefixOf_iff_prefix.2 hv.1)

theorem leadsUp_import : QuotedLine.LeadsUp (callLead "import") :=
  leadsUp_callLead (by decide) (List.all_iff_forall_prop.1 (by decide +kernel))

theorem leadsUp_require : QuotedLine.LeadsUp (callLead "require") :=
  leadsUp_callLead (by decide) (List.all_iff_forall_prop.1 (by decide +kernel))

/-- **What a pass finds on the line of a statement** is its specifier if the pass is that of the
form of the statement, and nothing otherwise. -/
theorem findsOn (k : Pass) (s : Statement) : k.finder.pattern.FindsOn s.line.text (found k s) := by
  have hrequiring : s.form = .requiring → s.line.opening = "const x = require(".toList := by
    intro h
    show s.form.lead ++ s.form.keyword = _
    rw [h]
    rfl
  have hloading : s.form = .loading → s.line.opening = "const x = import(".toList := by
    intro h
    show s.form.lead ++ s.form.keyword = _
    rw [h]
    rfl
  cases k with
  | static =>
    by_cases h : s.form.pass = .static
    · exact findsOn_static h
    · exact findsOn_static_of_call h
  | dynamic =>
    cases hform : s.form with
    | bare | importing | exporting =>
      have hstatic : s.form.pass = .static := by rw [hform]; rfl
      rw [found, hstatic]
      exact findsOn_loadCall_of_static leadsUp_import hstatic
    | requiring =>
      rw [found, hform]
      refine findsOn_loadCall_of_other leadsUp_import ?_
      rw [hrequiring hform]
      decide
    | loading =>
      have hpass : s.form.pass = .dynamic := by rw [hform]; rfl
      rw [found, if_pos hpass]
      refine findsOn_loadCall leadsUp_import (by rw [hform]; rfl) (by rw [hform]; decide)
        (by rw [hform]; rfl) ?_
      rw [hloading hform, hform]
      decide
  | require =>
    cases hform : s.form with
    | bare | importing | exporting =>
      have hstatic : s.form.pass = .static := by rw [hform]; rfl
      rw [found, hstatic]
      exact findsOn_loadCall_of_static leadsUp_require hstatic
    | requiring =>
      have hpass : s.form.pass = .require := by rw [hform]; rfl
      rw [found, if_pos hpass]
      refine findsOn_loadCall leadsUp_require (by rw [hform]; rfl) (by rw [hform]; decide)
        (by rw [hform]; rfl) ?_
      rw [hrequiring hform, hform]
      decide
    | loading =>
      rw [found, hform]
      refine findsOn_loadCall_of_other leadsUp_require ?_
      rw [hloading hform]
      decide

theorem advances (k : Pass) : k.finder.pattern.Advances := by
  cases k with
  | static => exact QuotedLine.advances_quoting spells_staticLead spells_nothing
  | dynamic => exact QuotedLine.advances_quoting (spells_callLead "import") spells_callEnd
  | require => exact QuotedLine.advances_quoting (spells_callLead "require") spells_callEnd

theorem skipsLineEnds (k : Pass) : k.finder.pattern.SkipsLineEnds := by
  cases k with
  | static =>
    exact QuotedLine.skipsLineEnds_quoting spells_staticLead spells_nothing leadsUp_staticLead
  | dynamic =>
    exact QuotedLine.skipsLineEnds_quoting (spells_callLead "import") spells_callEnd leadsUp_import
  | require =>
    exact QuotedLine.skipsLineEnds_quoting (spells_callLead "require") spells_callEnd
      leadsUp_require

/-- A statement stands on one line. -/
theorem not_mem_text (s : Statement) : '\n' ∉ s.line.text := by
  have hfrom : '\n' ∉ " from ".toList := by decide
  have hopening : '\n' ∉ s.form.lead ++ s.form.keyword := by
    cases s.form with
    | bare => exact (by decide : '\n' ∉ "import ".toList)
    | importing clause hclause =>
      show '\n' ∉ "import ".toList ++ (clause ++ " from ".toList)
      rw [List.mem_append, List.mem_append, not_or, not_or]
      exact ⟨by decide, hclause.not_mem, hfrom⟩
    | exporting clause hclause =>
      show '\n' ∉ "export ".toList ++ (clause ++ " from ".toList)
      rw [List.mem_append, List.mem_append, not_or, not_or]
      exact ⟨by decide, hclause.not_mem, hfrom⟩
    | requiring => exact (by decide : '\n' ∉ "const x = require(".toList)
    | loading => exact (by decide : '\n' ∉ "const x = import(".toList)
  have hclosing : '\n' ∉ s.form.closing := by
    cases s.form with
    | bare | importing | exporting => exact (by decide : '\n' ∉ ";".toList)
    | requiring | loading => exact (by decide : '\n' ∉ ");".toList)
  have hquote : '\n' ≠ s.quote := by
    intro h
    exact absurd (h ▸ s.isQuote_quote) (by decide)
  show '\n' ∉ (s.form.lead ++ s.form.keyword) ++ s.quote ::
      (s.specifier ++ s.quote :: s.form.closing)
  simp only [List.mem_append, List.mem_cons, not_or] at hopening ⊢
  exact ⟨hopening, hquote, s.isSpecifier.not_mem, hquote, hclosing⟩

/-- The import that a statement makes. -/
def reference (s : Statement) (line : Nat) : ImportReference :=
  ⟨String.ofList s.specifier, s.form.kind, line⟩

/-- All passes together find the import of a statement on its line. -/
theorem flatMap_onLine (s : Statement) (line : Nat) :
    ([Pass.static, .dynamic, .require].flatMap fun k => k.finder.onLine (found k s) line) =
      [s.reference line] := by
  have hfound : ∀ k, k.finder.onLine (found k s) line =
      if s.form.pass = k then [s.reference line] else [] := by
    intro k
    rw [found]
    split_ifs with h
    · subst h
      rw [reference, ← Form.kind_pass]
      cases s.form.pass <;> rfl
    · rfl
  simp only [hfound, List.flatMap_cons, List.flatMap_nil]
  cases s.form.pass <;> rfl

end Statement

/-- The text of some statements, each on a line of its own; the last line ends with a
line feed or without. -/
def printed (ended : Bool) (statements : List Statement) : List Char :=
  stacked ended (statements.map fun s => s.line.text)

/-- **Finding imports inverts printing them.** In the text of some statements, one on a line, the
specifier of each one is found, in order, on its line and with the way of importing of its form. -/
theorem extract_printed {path : String} (hpath : extensionOf path ∉ pythonExtensions) (ended : Bool)
    (statements : List Statement) :
    extract path (String.ofList (printed ended statements)) =
      (statements.zipIdx 1).map fun x => x.1.reference x.2 := by
  have hplace : ∀ s ∈ statements, ∃ n ≤ s.line.text.length, ∀ k, ∀ h ∈ Statement.found k s,
      h.offset = n := by
    intro s _
    refine ⟨s.form.lead.length, ?_, fun k h hh => ?_⟩
    · show s.form.lead.length ≤ ((s.form.lead ++ s.form.keyword) ++ _).length
      rw [List.length_append, List.length_append]
      omega
    · rw [Statement.found] at hh
      split_ifs at hh
      · exact List.mem_singleton.1 hh ▸ rfl
      · cases hh
  have hother : pythonExtensions.contains (extensionOf path) = false := by
    rw [Bool.eq_false_iff, ne_eq, List.contains_iff_mem]
    exact hpath
  unfold extract
  dsimp only
  rw [hother, String.toList_ofList, if_neg Bool.false_ne_true, ecmascriptReferences_eq, printed,
    inOrder_stacked ended Statement.advances Statement.skipsLineEnds Statement.not_mem_text
      (fun k s _ => Statement.findsOn k s) hplace, List.map_eq_flatMap]
  exact List.flatMap_congr fun x _ => Statement.flatMap_onLine x.1 x.2

/-- Clauses and specifiers that look like imports are found for what they are. -/
theorem extract_printed_of_misleading_words :
    let clause : IsClause "import from from".toList :=
      ⟨by decide, List.all_iff_forall_prop.1 (by decide +kernel), by decide⟩
    let statements : List Statement :=
      [⟨.importing _ clause, '\x27', "require(".toList, rfl,
        ⟨by decide, List.all_iff_forall_prop.1 (by decide), by decide⟩⟩, ⟨.bare, '\x60',
          "import x from ".toList, rfl,
          ⟨by decide, List.all_iff_forall_prop.1 (by decide), by decide⟩⟩,
        ⟨.loading, '\x22', "./a".toList, rfl,
          ⟨by decide, List.all_iff_forall_prop.1 (by decide), by decide⟩⟩]
    extensionOf "a.ts" ∉ pythonExtensions ∧
      String.ofList (printed true statements) =
        "import import from from from 'require(';\n" ++ "import \x60import x from \x60;\n" ++
          "const x = import(\x22./a\x22);\n" ∧
      extract "a.ts" (String.ofList (printed true statements)) =
        [⟨"require(", .static, 1⟩, ⟨"import x from ", .static, 2⟩, ⟨"./a", .dynamic, 3⟩] := by
  intro clause statements
  have hpath : extensionOf "a.ts" ∉ pythonExtensions := by decide
  exact ⟨hpath, by decide, extract_printed hpath true statements⟩

end Ecmascript
end FromText
end CodeSurvey
