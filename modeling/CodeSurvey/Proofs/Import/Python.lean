/-
# Import lines of Python

The import statements of Python as they stand on one line with single blanks: `import`
with modules, `from` with a module and names, and `from` with dots, with a module or
without. A name may have an alias.

The passes over a text find on such a line what can be read off its keyword
(`Python.ImportLine.legible`): all that the line imports, but of an `import` with several modules
only the first (`Python.extract_of_python`).
-/

import CodeSurvey.Proofs.Import.Keyword

namespace CodeSurvey
namespace FromText
namespace Python

open Pattern Text

/-- A name: some word characters. -/
structure Name where
  text : List Char
  ne_nil : text ≠ []
  isWord : ∀ c ∈ text, isWord c = true

/-- A module: names with dots between them. -/
structure Module where
  first : Name
  rest : List Name

/-- What is written for an alias. -/
def aliasText : Option Name → List Char
  | none => []
  | some a => " as ".toList ++ a.text

/-- The text of a module. -/
def Module.text (m : Module) : List Char := m.first.text ++ m.rest.flatMap fun n => '.' :: n.text

/-- An import on one line. The dots of a relative import are one and as many more as it climbs. -/
inductive ImportLine
  | modules (first : Module × Option Name) (rest : List (Module × Option Name))
  | names (module : Module) (first : Name × Option Name) (rest : List (Name × Option Name))
  | relative (climbs : Nat) (module : Option Module) (first : Name × Option Name)
      (rest : List (Name × Option Name))

/-- Texts with commas between them. -/
def commaListed (first : List Char) (rest : List (List Char)) : List Char :=
  first ++ rest.flatMap fun x => ',' :: ' ' :: x

/-- A module with its alias. -/
def moduleText (x : Module × Option Name) : List Char := x.1.text ++ aliasText x.2

/-- A name with its alias. -/
def nameText (x : Name × Option Name) : List Char := x.1.text ++ aliasText x.2

/-- The dots of a relative import. -/
def dotsText (climbs : Nat) : List Char := List.replicate (climbs + 1) '.'

namespace ImportLine

/-- The text of the line. -/
def text : ImportLine → List Char
  | modules first rest =>
    "import".toList ++ ' ' :: commaListed (moduleText first) (rest.map moduleText)
  | names module first rest =>
    "from".toList ++ ' ' :: (module.text ++ ' ' :: ("import".toList ++ ' ' ::
      commaListed (nameText first) (rest.map nameText)))
  | relative climbs module first rest =>
    "from".toList ++ ' ' ::
      (dotsText climbs ++ (module.elim [] Module.text ++ ' ' :: ("import".toList ++ ' ' ::
      commaListed (nameText first) (rest.map nameText))))

/-- The way of importing. -/
def kind : ImportLine → ImportKind
  | modules .. => .plain
  | names .. | relative .. => .fromModule

/-- The specifiers that can be read off the keyword of the line. -/
def legible : ImportLine → List (List Char)
  | modules first _ => [first.1.text]
  | names module _ _ => [module.text]
  | relative climbs (some module) _ _ => [relativeSpecifier (climbs + 1 : Nat) module.text]
  | relative climbs none first rest =>
    (first :: rest).map fun x => relativeSpecifier (climbs + 1 : Nat) x.1.text

end ImportLine

/-- The passes that look for imports of Python. -/
inductive Pass
  | relative
  | absolute
  | plain
  deriving DecidableEq

/-- The specifiers that a relative import names: its module, or each of its names. -/
def relativeNames (captured : List (Nat × List Char)) : List (List Char) :=
  let dots := (captured.lookup 1).getD []
  let module := (captured.lookup 2).getD []
  if !module.isEmpty then [relativeSpecifier dots.length module]
  else ((fields ',' ((captured.lookup 3).getD [])).filterMap boundName?).map
    (relativeSpecifier dots.length)

/-- What a pass looks for. -/
def Pass.finder : Pass → Finder
  | relative => ⟨fromRelative, relativeNames, .fromModule⟩
  | absolute => .single fromAbsolute .fromModule
  | plain => .single plainImport .plain

theorem pythonReferences_eq (cs : List Char) :
    pythonReferences cs = [Pass.relative, .absolute, .plain].flatMap fun k =>
      k.finder.references cs := by
  have hrelative : Pass.relative.finder.references cs = (fromRelative.findAll cs).flatMap
      (relativeReferences cs) := by
    rw [Finder.references, hits, List.flatMap_map]
    refine List.flatMap_congr fun f _ => ?_
    simp only [Pass.finder, relativeNames, relativeReferences, captured, Cursor.group?]
    by_cases hmodule : ((f.stop.captured.lookup 2).getD []).isEmpty = true
    · simp only [hmodule, Bool.not_true, Bool.false_eq_true, if_false, List.map_map]
      rfl
    · simp only [hmodule, Bool.not_false, if_true, List.map_singleton]
  simp only [pythonReferences, List.flatMap_cons, List.flatMap_nil, Pass.finder,
    Finder.references_single, List.append_assoc, List.append_nil]
  rw [← hrelative]
  rfl

section Characters

variable {c : Char} {tail : List Char}

theorem isGap_eq_false_of_isWord (h : isWord c = true) : isGap c = false := by
  rw [Bool.eq_false_iff]
  intro hgap
  simp only [isGap, Bool.or_eq_true, beq_iff_eq] at hgap
  rcases hgap with rfl | rfl
  all_goals exact absurd h (by decide)

theorem isDotted_of_isWord (h : isWord c = true) : isDotted c = true := by simp [isDotted, h]

/-- A name starts with a word character. -/
theorem Name.exists_cons (n : Name) : ∃ c cs, n.text = c :: cs ∧ Text.isWord c = true := by
  obtain ⟨c, cs, h⟩ := List.exists_cons_of_ne_nil n.ne_nil
  exact ⟨c, cs, h, n.isWord c (h ▸ List.mem_cons_self ..)⟩

/-- A module starts with a word character. -/
theorem Module.exists_cons (m : Module) : ∃ c cs, m.text = c :: cs ∧ Text.isWord c = true := by
  obtain ⟨c, cs, h, hc⟩ := m.first.exists_cons
  exact ⟨c, cs ++ m.rest.flatMap fun n => '.' :: n.text,
    by rw [Module.text, h, List.cons_append], hc⟩

/-- A module is made of word characters and dots. -/
theorem Module.isDotted_of_mem {m : Module} (h : c ∈ m.text) : isDotted c = true := by
  rcases List.mem_append.1 h with h | h
  · exact isDotted_of_isWord (m.first.isWord c h)
  · obtain ⟨n, -, hn⟩ := List.mem_flatMap.1 h
    rcases List.mem_cons.1 hn with rfl | hn
    · decide
    · exact isDotted_of_isWord (n.isWord c hn)

/-- Behind the first of some listed things stands a blank, a comma, or the end of the line. -/
theorem head?_behind (htail : ∀ c ∈ tail.head?, c = '\n') (a : Option Name)
    (rest : List (List Char))
    (h : c ∈ (aliasText a ++ (rest.flatMap fun x => ',' :: ' ' :: x) ++ tail).head?) :
    c = ' ' ∨ c = ',' ∨ c = '\n' := by
  rcases a with _ | a
  · rcases rest with _ | ⟨x, rest⟩
    · exact .inr (.inr (htail c h))
    · exact .inr (.inl (Option.some.inj h).symm)
  · exact .inl (Option.some.inj h).symm

/-- A dotted name ends before a blank, a comma, or the end of the line. -/
theorem isDotted_eq_false_behind (h : c = ' ' ∨ c = ',' ∨ c = '\n') : isDotted c = false := by
  rcases h with rfl | rfl | rfl <;> decide

end Characters

section Takes

variable {before : Option Char} {ahead : List Char}

/-- A module is taken as a whole. -/
theorem takes_dottedName (m : Module) (hahead : ∀ c ∈ ahead.head?, isDotted c = false) :
    dottedName.Takes before m.text ahead [] := by
  obtain ⟨c, cs, htext, hc⟩ := m.exists_cons
  have hdotted : ∀ d ∈ cs, isDotted d = true := fun d hd =>
    Module.isDotted_of_mem (m := m) (htext ▸ List.mem_cons_of_mem c hd)
  rw [htext]
  exact (takes_char hc).seq (takes_many hdotted hahead)

end Takes

namespace ImportLine

/-- The line of an `import` without its first module. -/
def behind (first : Module × Option Name) (rest : List (Module × Option Name)) : List Char :=
  aliasText first.2 ++ (rest.map moduleText).flatMap fun x => ',' :: ' ' :: x

theorem text_modules (first : Module × Option Name) (rest : List (Module × Option Name)) :
    (modules first rest).text = ("import".toList ++ ' ' :: first.1.text) ++ behind first rest := by
  simp only [text, commaListed, moduleText, behind, List.append_assoc, List.cons_append]

/-- Of an `import` the pass for it finds the first module. -/
theorem matchAt?_plainImport {first : Module × Option Name} {rest : List (Module × Option Name)}
    {s t : Cursor} (hstart : s.AtLineStart) (hpass : s.Passes (modules first rest).text t)
    (hend : t.AtLineEnd) :
    ∃ m, plainImport.matchAt? s = some { m with captured := [(1, first.1.text)] } ∧
      s.Passes ("import".toList ++ ' ' :: first.1.text) m := by
  rw [text_modules] at hpass
  obtain ⟨m, hm, hmt⟩ := Cursor.passes_append_iff.1 hpass
  have hahead : ∀ c ∈ m.rest.head?, isDotted c = false := by
    intro c hc
    rw [hmt.rest_eq] at hc
    exact isDotted_eq_false_behind (head?_behind hend first.2 _ hc)
  have hhead : ∀ c ∈ (first.1.text ++ m.rest).head?, isGap c = false := by
    obtain ⟨c, cs, htext, hc⟩ := first.1.exists_cons
    rw [htext]
    exact fun d hd => Option.some.inj hd ▸ isGap_eq_false_of_isWord hc
  have htakes : (keyworded "import" [capture 1 dottedName]).Takes s.before
      ("import".toList ++ ' ' :: first.1.text) m.rest
      [(1, first.1.text)] :=
    takes_keyworded isKeyword_import hstart hhead (takes_dottedName first.1 hahead).capture
  exact ⟨m, matchAt?_of_takes htakes hm, hm⟩

/-- The names of a `from` import are on the rest of its line. -/
def namesText (first : Name × Option Name) (rest : List (Name × Option Name)) : List Char :=
  commaListed (nameText first) (rest.map nameText)

theorem exists_cons_namesText (first : Name × Option Name) (rest : List (Name × Option Name)) :
    ∃ c cs, namesText first rest = c :: cs ∧ isWord c = true := by
  obtain ⟨c, cs, htext, hc⟩ := first.1.exists_cons
  exact ⟨c, _, by rw [namesText, commaListed, nameText, htext]; rfl, hc⟩

theorem text_names (module : Module) (first : Name × Option Name)
    (rest : List (Name × Option Name)) :
    (names module first rest).text =
      ("from".toList ++ ' ' :: (module.text ++ (' ' :: "import".toList))) ++ ' ' ::
        namesText first rest := by
  simp only [text, namesText, List.append_assoc, List.cons_append]

/-- Of a `from` import of a module the pass for it finds the module. -/
theorem matchAt?_fromAbsolute {module : Module} {first : Name × Option Name}
    {rest : List (Name × Option Name)} {s t : Cursor} (hstart : s.AtLineStart)
    (hpass : s.Passes (names module first rest).text t) :
    ∃ m, fromAbsolute.matchAt? s = some { m with captured := [(1, module.text)] } ∧
      s.Passes ("from".toList ++ ' ' :: (module.text ++ (' ' :: "import".toList))) m := by
  rw [text_names] at hpass
  obtain ⟨m, hm, hmt⟩ := Cursor.passes_append_iff.1 hpass
  have hnogap : isGap 'i' = false := by decide
  have hnodot : isDotted ' ' = false := by decide
  have hkeyword : ∀ c ∈ (("import".toList ++ []) ++ m.rest).head?, isGap c = false :=
    fun c hc => Option.some.inj hc ▸ hnogap
  have hbehind : ∀ c ∈ (([' '] ++ ("import".toList ++ [])) ++ m.rest).head?, isDotted c = false :=
    fun c hc => Option.some.inj hc ▸ hnodot
  have hletter : isWord 't' = true := by decide
  have hspace : isWord ' ' = false := by decide
  have hedge : (all [wordEdge]).Takes ("import".toList.getLast?.or (some ' ')) [] m.rest [] := by
    refine takes_place ?_
    rw [hmt.rest_eq]
    show (isWord 't' != isWord ' ') = true
    rw [hletter, hspace]
    rfl
  have hword : (all [word "import", wordEdge]).Takes (some ' ') ("import".toList ++ []) m.rest [] :=
    (takes_word "import").all_cons hedge
  have hgap : (all [some1 gap, word "import", wordEdge]).Takes (module.text.getLast?.or (some ' '))
      ([' '] ++ ("import".toList ++ [])) m.rest [] :=
    (takes_blank hkeyword).all_cons hword
  have hmodule : (all [capture 1 dottedName, some1 gap, word "import", wordEdge]).Takes (some ' ')
      (module.text ++ ([' '] ++ ("import".toList ++ []))) m.rest [(1, module.text)] :=
    (takes_dottedName module hbehind).capture.all_cons hgap
  have hhead : ∀ c ∈ ((module.text ++ ([' '] ++ ("import".toList ++ []))) ++ m.rest).head?,
      isGap c = false := by
    obtain ⟨c, cs, htext, hc⟩ := module.exists_cons
    rw [htext]
    exact fun d hd => Option.some.inj hd ▸ isGap_eq_false_of_isWord hc
  have htakes := takes_keyworded isKeyword_from hstart hhead hmodule
  exact ⟨m, matchAt?_of_takes htakes hm, hm⟩

/-- Whether a character can stand in the names of a relative import. -/
def isListChar (c : Char) : Bool := c != ')' && c != '#' && c != '\n'

theorem isListChar_of_isWord {c : Char} (h : isWord c = true) : isListChar c = true := by
  simp only [isListChar, Bool.and_eq_true, bne_iff_ne]
  refine ⟨⟨?_, ?_⟩, ?_⟩
  all_goals
    rintro rfl
    exact absurd h (by decide)

theorem isListChar_of_isDotted {c : Char} (h : isDotted c = true) : isListChar c = true := by
  rcases Bool.or_eq_true .. ▸ h with h | h
  · exact isListChar_of_isWord h
  · rw [beq_iff_eq.1 h]
    decide

theorem isListChar_aliasText (a : Option Name) : ∀ c ∈ aliasText a, isListChar c = true := by
  have has : ∀ c ∈ " as ".toList, isListChar c = true := List.all_iff_forall_prop.1 (by decide)
  cases a with
  | none => exact fun c hc => absurd hc List.not_mem_nil
  | some a => exact List.forall_mem_append.2 ⟨has, fun c hc => isListChar_of_isWord (a.isWord c hc)⟩

theorem isListChar_nameText (x : Name × Option Name) : ∀ c ∈ nameText x, isListChar c = true :=
  List.forall_mem_append.2 ⟨fun c hc => isListChar_of_isWord (x.1.isWord c hc),
    isListChar_aliasText x.2⟩

theorem isListChar_moduleText (x : Module × Option Name) :
    ∀ c ∈ moduleText x, isListChar c = true :=
  List.forall_mem_append.2 ⟨fun _ hc => isListChar_of_isDotted (Module.isDotted_of_mem hc),
    isListChar_aliasText x.2⟩

theorem isListChar_commaListed {first : List Char} {rest : List (List Char)}
    (hfirst : ∀ c ∈ first, isListChar c = true) (hrest : ∀ x ∈ rest, ∀ c ∈ x, isListChar c = true) :
    ∀ c ∈ commaListed first rest, isListChar c = true := by
  have hcomma : isListChar ',' = true ∧ isListChar ' ' = true := by decide
  refine List.forall_mem_append.2 ⟨hfirst, fun c hc => ?_⟩
  obtain ⟨x, hx, hc⟩ := List.mem_flatMap.1 hc
  have hitem : ∀ d ∈ ',' :: ' ' :: x, isListChar d = true :=
    List.forall_mem_cons.2 ⟨hcomma.1, List.forall_mem_cons.2 ⟨hcomma.2, hrest x hx⟩⟩
  exact hitem c hc

theorem isListChar_namesText (first : Name × Option Name) (rest : List (Name × Option Name)) :
    ∀ c ∈ namesText first rest, isListChar c = true :=
  isListChar_commaListed (isListChar_nameText first) fun _ hx => by
    obtain ⟨x, -, rfl⟩ := List.mem_map.1 hx
    exact isListChar_nameText x

/-- The names of a relative import are taken up to the end of the line. -/
theorem takes_namesText {first : Name × Option Name} {rest : List (Name × Option Name)}
    {ahead : List Char} (hend : ∀ c ∈ ahead.head?, c = '\n') :
    (all [optional (one '('), capture 3 (many (char isListChar))]).Takes (some ' ')
      (namesText first rest) ahead
      [(3, namesText first rest)] := by
  obtain ⟨c, cs, hnames, hc⟩ := exists_cons_namesText first rest
  have hstop : ∀ c ∈ ([] ++ ahead).head?, isListChar c = false := by
    intro c hc
    rw [hend c hc]
    decide
  have hlist : (all [capture 3 (many (char isListChar))]).Takes (some ' ')
      (namesText first rest ++ []) ahead
      [(3, namesText first rest)] :=
    (takes_many (isListChar_namesText first rest) hstop).capture.all_cons takes_all_nil
  rw [List.append_nil] at hlist
  have hnone : ∀ u v : Cursor, u.before = some ' ' → u.rest = namesText first rest ++ ahead →
      ¬(one '(').Reaches u v := by
    rintro u v - hu ⟨d, hnext, hd⟩
    have hhead := (Cursor.next?_eq_some_iff.1 hnext).rest_eq
    rw [hu, hnames] at hhead
    obtain rfl := (List.cons.inj hhead).1
    rw [beq_iff_eq.1 hd] at hc
    exact absurd hc (by decide)
  exact (takes_optional_nothing hnone).all_cons hlist

/-- Behind the module of a relative import stands `import` and its names. -/
theorem takes_importing {first : Name × Option Name} {rest : List (Name × Option Name)}
    {before : Option Char} {ahead : List Char} (hend : ∀ c ∈ ahead.head?, c = '\n') :
    (all [some1 gap, word "import", some1 gap, optional (one '('),
      capture 3 (many (char isListChar))]).Takes before
      ([' '] ++ ("import".toList ++ ([' '] ++ namesText first rest))) ahead
        [(3, namesText first rest)] := by
  have hnogap : isGap 'i' = false := by decide
  have hnames : ∀ d ∈ (namesText first rest ++ ahead).head?, isGap d = false := by
    obtain ⟨c, cs, hnames, hc⟩ := exists_cons_namesText first rest
    rw [hnames]
    exact fun d hd => Option.some.inj hd ▸ isGap_eq_false_of_isWord hc
  have hkeyword : ∀ d ∈ (("import".toList ++ ([' '] ++ namesText first rest)) ++ ahead).head?,
      isGap d = false :=
    fun d hd => Option.some.inj hd ▸ hnogap
  exact (takes_blank hkeyword).all_cons
    ((takes_word "import").all_cons ((takes_blank hnames).all_cons (takes_namesText hend)))

/-- Of a relative import the pass for it finds the dots, the module, and the names. -/
theorem matchAt?_fromRelative {climbs : Nat} {module : Option Module} {first : Name × Option Name}
    {rest : List (Name × Option Name)} {s t : Cursor} (hstart : s.AtLineStart)
    (hpass : s.Passes (relative climbs module first rest).text t) (hend : t.AtLineEnd) :
    fromRelative.matchAt? s = some { t with
      captured := [(3, namesText first rest), (2, module.elim [] Module.text),
        (1, dotsText climbs)] } := by
  have hnodot : isDotted ' ' = false := by decide
  have hnogap : isGap '.' = false := by decide
  have hdotted : ∀ d ∈ module.elim [] Module.text, isDotted d = true := by
    cases module with
    | none => exact fun d hd => absurd hd List.not_mem_nil
    | some m => exact fun d hd => Module.isDotted_of_mem hd
  have hspace : ∀ d ∈
      (([' '] ++ ("import".toList ++ ([' '] ++ namesText first rest))) ++ t.rest).head?,
      isDotted d = false := fun d hd => Option.some.inj hd ▸ hnodot
  have hdots : ∀ d ∈ dotsText climbs, (d == '.') = true :=
    fun d hd => beq_iff_eq.2 (List.eq_of_mem_replicate hd)
  have hafter : ∀ d ∈
      ((module.elim [] Module.text ++
        ([' '] ++ ("import".toList ++ ([' '] ++ namesText first rest)))) ++
      t.rest).head?, (d == '.') = false := by
    cases module with
    | none => exact fun d hd => Option.some.inj hd ▸ rfl
    | some m =>
      obtain ⟨e, es, htext, he⟩ := m.exists_cons
      intro d hd
      rw [Option.elim_some, htext] at hd
      obtain rfl := Option.some.inj hd
      rw [beq_eq_false_iff_ne]
      rintro rfl
      exact absurd he (by decide)
  have hhead : ∀ d ∈
      ((dotsText climbs ++ (module.elim [] Module.text ++ ([' '] ++ ("import".toList ++ ([' '] ++
      namesText first rest))))) ++ t.rest).head?, isGap d = false :=
        fun d hd => Option.some.inj hd ▸ hnogap
  have htakes := takes_keyworded isKeyword_from hstart hhead
    (((takes_some1 (List.cons_ne_nil _ _) hdots hafter).capture (n := 1)).all_cons
      (((takes_many hdotted hspace).capture (n := 2)).all_cons (takes_importing hend)))
  refine matchAt?_of_takes htakes ?_
  simpa [text, namesText] using hpass

/-- What the passes find on a line. -/
def found : Pass → ImportLine → List Hit
  | .plain, modules first _ => [⟨0, [(1, first.1.text)]⟩]
  | .absolute, names module _ _ => [⟨0, [(1, module.text)]⟩]
  | .relative, relative climbs module first rest =>
    [⟨0, [(3, namesText first rest), (2, module.elim [] Module.text), (1, dotsText climbs)]⟩]
  | _, _ => []

/-- The keyword of a line. -/
def keyword : ImportLine → String
  | modules .. => "import"
  | names .. | relative .. => "from"

/-- Whether a line is a relative import. -/
def isRelative : ImportLine → Bool
  | relative .. => true
  | _ => false

/-- Behind the keyword stands a dot in a relative import and a word character in others. -/
theorem exists_text_eq (l : ImportLine) : ∃ c r, l.text = l.keyword.toList ++ ' ' :: c :: r ∧
    (if l.isRelative then c = '.' else isWord c = true) := by
  cases l with
  | modules first rest =>
    obtain ⟨c, cs, htext, hc⟩ := first.1.exists_cons
    exact ⟨c, _, by rw [text, commaListed, moduleText, htext]; rfl, hc⟩
  | names module first rest =>
    obtain ⟨c, cs, htext, hc⟩ := module.exists_cons
    exact ⟨c, _, by rw [text, htext]; rfl, hc⟩
  | relative climbs module first rest => exact ⟨'.', _, rfl, rfl⟩

theorem isKeyword_keyword (l : ImportLine) : IsKeyword l.keyword.toList := by
  cases l with
  | modules => exact isKeyword_import
  | names | relative => exact isKeyword_from

/-- A pass for another keyword, or for another character behind it, does not match a line. -/
theorem matchAt?_eq_none {l : ImportLine} {k : String} (hk : IsKeyword k.toList)
    {test : Char → Bool} {b : Pattern} {n : Nat} {ps : List Pattern} {s t : Cursor}
    (hpass : s.Passes l.text t) (hother : k = l.keyword →
        ∀ c, (if l.isRelative then c = '.' else isWord c = true) → test c = false) :
    (keyworded k (capture n (seq (char test) b) :: ps)).matchAt? s = none := by
  obtain ⟨c, r, htext, hc⟩ := exists_text_eq l
  have hgap : isGap c = false := by
    split_ifs at hc
    · rw [hc]
      decide
    · exact isGap_eq_false_of_isWord hc
  have hrest : s.rest = l.keyword.toList ++ ' ' :: c :: (r ++ t.rest) := by
    rw [hpass.rest_eq, htext, List.append_assoc]
    rfl
  refine matchAt?_keyworded_eq_none hk
    (isKeyword_keyword l) hgap hrest fun hsame u v hhead huv => ?_
  obtain ⟨d, hd, htest⟩ := exists_head?_of_reaches huv
  obtain rfl := Option.some.inj (hhead.symm.trans hd)
  rw [hother (String.toList_inj.1 hsame) c hc] at htest
  cases htest

/-- An import stands on one line. -/
theorem not_mem_text (l : ImportLine) : '\n' ∉ l.text := by
  have hfrom : ∀ c ∈ "from".toList, isListChar c = true := List.all_iff_forall_prop.1 (by decide)
  have himport : ∀ c ∈ "import".toList, isListChar c = true :=
    List.all_iff_forall_prop.1 (by decide)
  have hspace : isListChar ' ' = true := by decide
  have hdot : isListChar '.' = true := by decide
  have hmodule : ∀ m : Module, ∀ c ∈ m.text, isListChar c = true :=
    fun m c hc => isListChar_of_isDotted (Module.isDotted_of_mem hc)
  have hbehind : ∀ first rest, ∀ c ∈ ' ' :: ("import".toList ++ ' ' :: namesText first rest),
      isListChar c = true :=
    fun first rest => List.forall_mem_cons.2 ⟨hspace, List.forall_mem_append.2 ⟨himport,
      List.forall_mem_cons.2 ⟨hspace, isListChar_namesText first rest⟩⟩⟩
  have hall : ∀ c ∈ l.text, isListChar c = true := by
    cases l with
    | modules first rest =>
      have hlist : ∀ c ∈ commaListed (moduleText first) (rest.map moduleText),
          isListChar c = true :=
        isListChar_commaListed (isListChar_moduleText first) fun _ hx => by
          obtain ⟨x, -, rfl⟩ := List.mem_map.1 hx
          exact isListChar_moduleText x
      exact List.forall_mem_append.2 ⟨himport, List.forall_mem_cons.2 ⟨hspace, hlist⟩⟩
    | names module first rest =>
      exact List.forall_mem_append.2 ⟨hfrom, List.forall_mem_cons.2 ⟨hspace,
        List.forall_mem_append.2 ⟨hmodule module, hbehind first rest⟩⟩⟩
    | relative climbs module first rest =>
      have hdots : ∀ c ∈ dotsText climbs, isListChar c = true :=
        fun c hc => (List.eq_of_mem_replicate hc) ▸ hdot
      have helim : ∀ c ∈ module.elim [] Module.text, isListChar c = true := by
        cases module with
        | none => exact fun c hc => absurd hc List.not_mem_nil
        | some m => exact hmodule m
      exact List.forall_mem_append.2 ⟨hfrom,
        List.forall_mem_cons.2 ⟨hspace,
          List.forall_mem_append.2 ⟨hdots, List.forall_mem_append.2 ⟨helim, hbehind first rest⟩⟩⟩⟩
  exact fun h => absurd (hall '\n' h) (by decide)

/-- **What a pass finds on a line** is what belongs to its keyword and what follows it. -/
theorem findsOn (k : Pass) (l : ImportLine) : k.finder.pattern.FindsOn l.text (found k l) := by
  have hrelative : fromRelative.Advances ∧ fromRelative.Anchored :=
    ⟨advances_keyworded "from" _, anchored_keyworded "from" _⟩
  have habsolute : fromAbsolute.Advances ∧ fromAbsolute.Anchored :=
    ⟨advances_keyworded "from" _, anchored_keyworded "from" _⟩
  have hplain : plainImport.Advances ∧ plainImport.Anchored :=
    ⟨advances_keyworded "import" _, anchored_keyworded "import" _⟩
  have hdot : isWord '.' = false := by decide
  cases k with
  | plain =>
    cases l with
    | modules first rest =>
      have hline := not_mem_text (modules first rest)
      have htext := text_modules first rest
      show plainImport.FindsOn (modules first rest).text [⟨0, [(1, first.1.text)]⟩]
      rw [htext] at hline ⊢
      exact findsOn_singleton_of_anchored hplain.1 hplain.2 hline
        (List.append_ne_nil_of_left_ne_nil (by decide) _)
        fun s t hstart hpass hend => matchAt?_plainImport hstart (htext ▸ hpass) hend
    | names | relative =>
      exact findsOn_nil_of_anchored hplain.1 hplain.2 (not_mem_text _) fun s t _ hpass _ =>
        matchAt?_eq_none isKeyword_import hpass fun h => absurd h (by decide : "import" ≠ "from")
  | absolute =>
    cases l with
    | modules first rest =>
      exact findsOn_nil_of_anchored habsolute.1 habsolute.2 (not_mem_text _) fun s t _ hpass _ =>
        matchAt?_eq_none isKeyword_from hpass fun h => absurd h (by decide : "from" ≠ "import")
    | names module first rest =>
      have hline := not_mem_text (names module first rest)
      have htext := text_names module first rest
      show fromAbsolute.FindsOn (names module first rest).text [⟨0, [(1, module.text)]⟩]
      rw [htext] at hline ⊢
      exact findsOn_singleton_of_anchored habsolute.1 habsolute.2 hline
        (List.append_ne_nil_of_left_ne_nil (by decide) _)
        fun s t hstart hpass _ => matchAt?_fromAbsolute hstart (htext ▸ hpass)
    | relative climbs module first rest =>
      exact findsOn_nil_of_anchored habsolute.1 habsolute.2 (not_mem_text _) fun s t _ hpass _ =>
        matchAt?_eq_none isKeyword_from hpass fun _ c hc => (show c = '.' from hc) ▸ hdot
  | relative =>
    cases l with
    | modules first rest =>
      exact findsOn_nil_of_anchored hrelative.1 hrelative.2 (not_mem_text _) fun s t _ hpass _ =>
        matchAt?_eq_none isKeyword_from hpass fun h => absurd h (by decide : "from" ≠ "import")
    | names module first rest =>
      refine findsOn_nil_of_anchored hrelative.1 hrelative.2 (not_mem_text _) fun s t _ hpass _ =>
        matchAt?_eq_none isKeyword_from hpass fun _ c hc => ?_
      rw [beq_eq_false_iff_ne]
      rintro rfl
      exact absurd hdot (Bool.not_eq_false _ ▸ (show isWord '.' = true from hc))
    | relative climbs module first rest =>
      have hline := not_mem_text (relative climbs module first rest)
      show fromRelative.FindsOn (relative climbs module first rest).text
        [⟨0, [(3, namesText first rest), (2, module.elim [] Module.text), (1, dotsText climbs)]⟩]
      rw [← List.append_nil (relative climbs module first rest).text] at hline ⊢
      refine findsOn_singleton_of_anchored hrelative.1 hrelative.2 hline (List.cons_ne_nil 'f' _)
        fun s t hstart hpass hend => ?_
      rw [List.append_nil] at hpass
      exact ⟨t, matchAt?_fromRelative hstart hpass hend, hpass⟩

end ImportLine

section Names

/-- The parts between the commas; behind each comma stands a blank. -/
theorem fields_commaListed {first : List Char} {rest : List (List Char)} (hfirst : ',' ∉ first)
    (hrest : ∀ x ∈ rest, ',' ∉ x) :
    fields ',' (commaListed first rest) = first :: rest.map (' ' :: ·) := by
  induction rest generalizing first with
  | nil => rw [commaListed, List.flatMap_nil, List.append_nil, fields_of_not_mem hfirst,
      List.map_nil]
  | cons x rest ih =>
    obtain ⟨hx, hrest⟩ := List.forall_mem_cons.1 hrest
    have hnext : ',' ∉ ' ' :: x := List.not_mem_cons_of_ne_of_not_mem (by decide) hx
    have htail := ih hnext hrest
    have hsplit : commaListed first (x :: rest) = first ++ ',' :: commaListed (' ' :: x) rest := rfl
    rw [hsplit, fields_append_separator, fields_of_not_mem hfirst, htail, List.map_cons,
      List.singleton_append]

/-- A word that starts with a blank occurs in a name with something behind it
only behind the name. -/
theorem before_append_of_isWord {w cs r : List Char} (hcs : ∀ c ∈ cs, isWord c = true) :
    Text.before (' ' :: w) (cs ++ r) = cs ++ Text.before (' ' :: w) r := by
  induction cs with
  | nil => rfl
  | cons c cs ih =>
    obtain ⟨hc, hcs⟩ := List.forall_mem_cons.1 hcs
    have hne : (' ' == c) = false := by
      rw [beq_eq_false_iff_ne]
      rintro rfl
      exact absurd hc (by decide)
    rw [List.cons_append, Text.before, List.isPrefixOf_cons_cons, hne, Bool.false_and,
      if_neg Bool.false_ne_true, ih hcs, List.cons_append]

/-- A name without its alias is the name. -/
theorem before_nameText (x : Name × Option Name) :
    Text.before " as ".toList (nameText x) = x.1.text := by
  have hword : " as ".toList = ' ' :: "as ".toList := rfl
  rw [nameText, hword, before_append_of_isWord x.1.isWord]
  cases x.2 with
  | none => exact List.append_nil _
  | some a => exact List.append_nil _

theorem trim_nameText (x : Name × Option Name) : trim (nameText x) = nameText x := by
  refine trim_eq_self (fun c hc => ?_) fun c hc => ?_
  · obtain ⟨d, ds, htext, hd⟩ := x.1.exists_cons
    rw [nameText, htext] at hc
    exact Option.some.inj hc ▸ isBlank_of_isWord hd
  · refine isBlank_of_isWord ?_
    rw [nameText] at hc
    cases halias : x.2 with
    | none =>
      rw [halias, aliasText, List.append_nil] at hc
      exact x.1.isWord c (List.mem_of_getLast? hc)
    | some a =>
      rw [halias, aliasText, ← List.append_assoc, List.getLast?_append_of_ne_nil _ a.ne_nil] at hc
      exact a.isWord c (List.mem_of_getLast? hc)

/-- A listed name, with a blank before it or none, binds the name. -/
theorem boundName?_nameText (x : Name × Option Name) : boundName? (nameText x) = some x.1.text := by
  have htrim : trim x.1.text = x.1.text := by
    have := trim_nameText (x.1, none)
    rwa [nameText, aliasText, List.append_nil] at this
  have hword : x.1.text.all isWord = true := List.all_eq_true.2 x.1.isWord
  have hne : x.1.text.isEmpty = false := List.isEmpty_eq_false_iff.2 x.1.ne_nil
  rw [boundName?]
  rw [trim_nameText, before_nameText, htrim, hne, hword]
  rfl

theorem boundName?_cons_nameText (x : Name × Option Name) :
    boundName? (' ' :: nameText x) = some x.1.text := by
  have htrim : trim (' ' :: nameText x) = trim (nameText x) := rfl
  rw [← boundName?_nameText x, boundName?, htrim, boundName?]

theorem not_mem_nameText (x : Name × Option Name) : ',' ∉ nameText x := by
  have hword : ∀ {c}, isWord c = true → ',' ≠ c := by
    rintro _ h rfl
    exact absurd h (by decide)
  have has : ',' ∉ " as ".toList := by decide
  have halias : ',' ∉ aliasText x.2 := by
    cases x.2 with
    | none => exact List.not_mem_nil
    | some a => exact fun h => (List.mem_append.1 h).elim has fun h => hword (a.isWord _ h) rfl
  exact fun h => (List.mem_append.1 h).elim (fun h => hword (x.1.isWord _ h) rfl) halias

/-- **The names in a list** are those that were listed, without their aliases. -/
theorem filterMap_boundName? (first : Name × Option Name) (rest : List (Name × Option Name)) :
    (fields ',' (ImportLine.namesText first rest)).filterMap boundName? =
      (first :: rest).map fun x => x.1.text := by
  have hrest : ∀ x ∈ rest.map nameText, ',' ∉ x := by
    intro x hx
    obtain ⟨y, -, rfl⟩ := List.mem_map.1 hx
    exact not_mem_nameText y
  rw [ImportLine.namesText, fields_commaListed (not_mem_nameText first) hrest,
    List.filterMap_cons_some (boundName?_nameText first), List.map_map, List.filterMap_map,
    List.map_cons]
  congr 1
  have hbound : (boundName? ∘ ((' ' :: ·) ∘ nameText)) = some ∘ fun x => x.1.text :=
    funext boundName?_cons_nameText
  rw [hbound, List.filterMap_eq_map]

end Names

namespace ImportLine

/-- What the pass for relative imports names on a line. -/
theorem relativeNames_found (climbs : Nat) (module : Option Module) (first : Name × Option Name)
    (rest : List (Name × Option Name)) :
    relativeNames [(3, namesText first rest), (2, module.elim [] Module.text),
      (1, dotsText climbs)] =
      (relative climbs module first rest).legible := by
  have hdots : (dotsText climbs).length = climbs + 1 := List.length_replicate
  have hlookup : relativeNames [(3, namesText first rest), (2, module.elim [] Module.text),
      (1, dotsText climbs)] =
      if !(module.elim [] Module.text).isEmpty then
        [relativeSpecifier (dotsText climbs).length (module.elim [] Module.text)]
      else ((fields ',' (namesText first rest)).filterMap boundName?).map
        (relativeSpecifier (dotsText climbs).length) := rfl
  rw [hlookup, hdots]
  cases module with
  | none =>
    rw [filterMap_boundName?, List.map_map]
    rfl
  | some m =>
    obtain ⟨c, cs, htext, -⟩ := m.exists_cons
    rw [Option.elim_some, htext, if_pos (by simp), legible, htext]

/-- All passes together find on a line what is legible of it. -/
theorem flatMap_onLine (l : ImportLine) (line : Nat) :
    ([Pass.relative, .absolute, .plain].flatMap fun k => k.finder.onLine (found k l) line) =
      l.legible.map fun s => ⟨String.ofList s, l.kind, line⟩ := by
  cases l with
  | modules first rest => rfl
  | names module first rest => rfl
  | relative climbs module first rest =>
    rw [← relativeNames_found]
    simp [Finder.onLine, found, Pass.finder, kind]

theorem advances (k : Pass) : k.finder.pattern.Advances := by
  cases k with
  | relative | absolute => exact advances_keyworded "from" _
  | plain => exact advances_keyworded "import" _

theorem skipsLineEnds (k : Pass) : k.finder.pattern.SkipsLineEnds := by
  cases k with
  | relative | absolute => exact skipsLineEnds_keyworded isKeyword_from _
  | plain => exact skipsLineEnds_keyworded isKeyword_import _

end ImportLine

/-- The text of some imports, each on a line of its own; the last line ends with a
line feed or without. -/
def printed (ended : Bool) (imports : List ImportLine) : List Char :=
  stacked ended (imports.map ImportLine.text)

/-- **What is found in the text of some imports** is what is legible on each line, in order. -/
theorem extract_of_python {path : String} (hpath : extensionOf path ∈ pythonExtensions)
    (ended : Bool) (imports : List ImportLine) :
    extract path (String.ofList (printed ended imports)) =
      (imports.zipIdx 1).flatMap fun x => x.1.legible.map fun s =>
        ⟨String.ofList s, x.1.kind, x.2⟩ := by
  have hplace : ∀ l ∈ imports, ∃ n ≤ l.text.length, ∀ k, ∀ h ∈ ImportLine.found k l,
      h.offset = n := by
    intro l _
    refine ⟨0, Nat.zero_le _, fun k h hh => ?_⟩
    cases k <;> cases l
    all_goals first
      | exact absurd hh List.not_mem_nil
      | exact List.mem_singleton.1 hh ▸ rfl
  have hpython : pythonExtensions.contains (extensionOf path) = true :=
    List.contains_iff_mem.2 hpath
  unfold extract
  dsimp only
  rw [hpython, String.toList_ofList, if_pos rfl, pythonReferences_eq, printed,
    inOrder_stacked ended ImportLine.advances ImportLine.skipsLineEnds ImportLine.not_mem_text
      (fun k l _ => ImportLine.findsOn k l) hplace]
  exact List.flatMap_congr fun x _ => ImportLine.flatMap_onLine x.1 x.2

end Python
end FromText
end CodeSurvey
