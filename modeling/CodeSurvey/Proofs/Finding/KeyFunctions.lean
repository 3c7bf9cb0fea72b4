/-
# Key functions and the complexity of their files

A file that is looked at and has a clean tree gives one function for each function node of the tree
whose complexity is above the minimum, in the order of the tree; any other file gives none
(`KeyFunctions.FoundIn`). What is reported is a head of all these functions in the order of their
rank (`KeyFunctions.functions_ranked`).

The nodes of a subtree are nodes of the tree, so no function is more complex than its file
(`cyclomaticComplexity_le`), and a clean parse gives the complexity of the tree to the metric of the
file unless it is so great that it has no number (`Quality.complexity_score`).
-/

import CodeSurvey.Finding.KeyFunctions
import CodeSurvey.Proofs.Keyed
import CodeSurvey.Proofs.Quality
import CodeSurvey.Proofs.Sorting
import CodeSurvey.Proofs.SyntaxTree
import Mathlib.Data.Prod.Lex
import Mathlib.Data.String.Basic

namespace CodeSurvey

open SyntaxTree

theorem cyclomaticComplexity_eq (r : BranchRules) (t : SyntaxTree) :
    cyclomaticComplexity r t = 1 + t.preorder.countP r.counts := by
      rw [cyclomaticComplexity, walk_eq_preorder]

/-- A subtree is no more complex than its tree. -/
theorem cyclomaticComplexity_le (r : BranchRules) {t root : SyntaxTree} (h : t ∈ root.preorder) :
    cyclomaticComplexity r t ≤ cyclomaticComplexity r root := by
  rw [cyclomaticComplexity_eq, cyclomaticComplexity_eq]
  exact Nat.add_le_add_left ((preorder_infix_preorder h).sublist.countP_le) 1

/-- A tree is no more complex than one and the number of its nodes. -/
theorem cyclomaticComplexity_le_size (r : BranchRules) (t : SyntaxTree) :
    cyclomaticComplexity r t ≤ 1 + t.size := by
  rw [cyclomaticComplexity_eq, ← length_preorder]
  exact Nat.add_le_add_left List.countP_le_length 1

/-- A complexity that has a number has an index. -/
theorem exists_maintainabilityIndex {complexity : Int} (h : (Binary64.ofInt complexity).isFinite)
    (lines : Int) : ∃ i, maintainabilityIndex complexity lines = .ok i := by
  obtain ⟨n, hn, -⟩ :=
    roundToInt_clampPercent (rawMaintainability (Binary64.ofInt complexity) (max lines 1).toNat)
  simp only [maintainabilityIndex, Outcome.bind_eq_ok]
  by_cases hnan : rawMaintainability (Binary64.ofInt complexity) (max lines 1).toNat == .nan
  · exact ⟨100, _, Tracker.toBinary64_int (Binary64.ofInt?_of_isFinite h), if_pos hnan⟩
  · exact ⟨n, _, Tracker.toBinary64_int (Binary64.ofInt?_of_isFinite h), (if_neg hnan).trans hn⟩

/-- Whether a parser gives trees whose number of nodes is in the range of numbers. -/
def Parser.Sizable (p : Parser) : Prop :=
  ∀ grammar source t, p.tree grammar source = .ok t → t.size < 2 ^ 1023

/-- A clean tree is one that the parser gave. -/
theorem Parser.Sizable.size_lt {p : Parser} (hp : p.Sizable) {path content : String} {q : Parsed}
    {root : SyntaxTree} (hparse : p.parse path content = .ok q) (hclean : q.tree = .ok root) :
    root.size < 2 ^ 1023 := by
  rw [parse] at hparse
  split at hparse
  · cases hparse
  · rename_i grammar _
    obtain ⟨-, -, hparse⟩ := Outcome.bind_eq_ok.1 hparse
    obtain ⟨t, ht, hparse⟩ := Outcome.bind_eq_ok.1 hparse
    dsimp only at hparse
    split at hparse
    · cases hparse
      cases hclean
    · cases hparse
      cases hclean
      exact hp grammar content root ht

namespace Quality

variable {c : Classification} {p : Parser} {f : SourceFile}

/-- A file with a clean tree is measured by the tree, if its complexity has an index. -/
theorem measure_of_clean (hparseable : c.isParseable f.path) (hsupported : p.supports f.path)
    (htext : (Text.trim f.text.toList).isEmpty = false) {q : Parsed}
    (hparse : p.parse f.path f.text = .ok q) {root : SyntaxTree} (hclean : q.tree = .ok root) :
    ∃ lines : Nat, measure c p f =
      Attempt.ofOutcome
        (maintainabilityIndex (cyclomaticComplexity (.ofGrammar q.grammar) root) lines) >>= fun i =>
        pure ⟨f.path, cyclomaticComplexity (.ofGrammar q.grammar) root, i, lines, false⟩ := by
  have hparsed (k : Parsed → Attempt QualityMetric) :
      (measure.liftExcept (.ok q) >>= k) = k q := rfl
  rw [measure]
  simp only [htext, hparseable, hsupported, hparse, hparsed, hclean]
  exact ⟨_, rfl⟩

/-- The metric of a file with a clean tree has the complexity of the tree. -/
theorem complexity_score (hp : p.Sizable) (hparseable : c.isParseable f.path)
    (hsupported : p.supports f.path) (htext : (Text.trim f.text.toList).isEmpty = false)
    {q : Parsed} (hparse : p.parse f.path f.text = .ok q) {root : SyntaxTree}
    (hclean : q.tree = .ok root) :
    (score c p f).value.complexity = cyclomaticComplexity (.ofGrammar q.grammar) root := by
  have hsmall : cyclomaticComplexity (.ofGrammar q.grammar) root ≤ 2 ^ 1023 :=
    (cyclomaticComplexity_le_size _ root).trans (Nat.one_add_le_iff.2 (hp.size_lt hparse hclean))
  obtain ⟨lines, hmeasure⟩ := measure_of_clean hparseable hsupported htext hparse hclean
  obtain ⟨i, hi⟩ :=
    exists_maintainabilityIndex (Binary64.isFinite_ofInt_of_le (Nat.le_refl 1023) hsmall) lines
  rw [score, Recorded.value_bind, hmeasure, hi]
  rfl

/-- Among the metrics of files with distinct paths each file finds its own. -/
theorem find?_scores (c : Classification) (p : Parser) {files : List SourceFile}
    (hpaths : (files.map (·.path)).Nodup) {f : SourceFile} (hf : f ∈ files) :
    find? f.path (files.map fun g => (score c p g).value) = some (score c p f).value := by
  have hpath (g : SourceFile) : (score c p g).value.path = g.path := (score_scored c p g).path
  have hown : (files.filter fun g => g.path == f.path) = [f] := filter_key_eq_singleton hpaths hf
  rw [find?, List.find?_map, ← List.head?_filter, Function.comp_def]
  simp only [hpath, hown, List.head?_cons, Option.map_some]

end Quality

namespace KeyFunctions

/-- The rank of a function: the most complex comes first, then the longest, then the first
by path, then by line. -/
def rank (x : KeyFunction) : ℤ ×ₗ ℤ ×ₗ String ×ₗ ℕ :=
  toLex (-x.complexity, toLex (-x.lineSpan, toLex (x.path, x.startLine)))

theorem ranksBefore_iff (x y : KeyFunction) : ranksBefore x y ↔ rank x ≤ rank y := by
  simp only [rank, Prod.Lex.toLex_le_toLex, ranksBefore]
  split_ifs with hcomplexity hspan hpath
  · have hne : -(x.complexity : ℤ) ≠ -y.complexity := by omega
    rw [decide_eq_true_eq]
    omega
  · rw [decide_eq_true_eq]
    omega
  · have := not_ne_iff.1 hspan
    rw [decide_eq_true_eq]
    simp only [not_ne_iff.1 hcomplexity, this, lt_irrefl, true_and, false_or, hpath,
      false_and, or_false]
  · simp only [not_ne_iff.1 hcomplexity, not_ne_iff.1 hspan, not_ne_iff.1 hpath, lt_irrefl,
      true_and, false_or, decide_eq_true_eq]

/-- Functions that were ranked are in the order of their rank. -/
theorem pairwise_ranked (xs : List KeyFunction) :
    (xs.mergeSort ranksBefore).Pairwise fun x y => rank x ≤ rank y :=
  pairwise_mergeSort_of_rank ranksBefore_iff xs

/-- Whether a node is a function above the minimum. -/
def isAbove (o : Options) (grammar : String) (t : SyntaxTree) : Bool :=
  (functionKinds grammar).contains t.kind && o.minComplexity <
    (cyclomaticComplexity (.ofGrammar grammar) t : Int)

/-- Whether a key function is what is reported of a node of a tree. -/
structure Reports (q : Parsed) (path : String) (root t : SyntaxTree) (x : KeyFunction) : Prop where
  path : x.path = path
  complexity : x.complexity = cyclomaticComplexity (.ofGrammar q.grammar) t
  startLine : x.startLine = (placeOf q.source t.label.start).1 + 1
  endLine : x.endLine = (placeOf q.source t.label.stop).1 + 1
  name : ∃ parent, (parent, t) ∈ root.withParents none ∧ x.name = nameOf q.source parent t

/-- What functions are found in a file. -/
inductive FoundIn (c : Classification) (p : Parser) (o : Options) (f : SourceFile) :
    List KeyFunction → Prop
  /-- A file that is not looked at has none. -/
  | unseen (h : looksAt c p f = false) : FoundIn c p o f []
  /-- A file without a clean tree has none. -/
  | unclean {q : Parsed} {e : String} (h : looksAt c p f) (hparse : p.parse f.path f.text = .ok q)
      (hunclean : q.tree = .error e) : FoundIn c p o f []
  /-- A clean tree has one for each of its functions above the minimum. -/
  | clean {q : Parsed} {root : SyntaxTree} {xs : List KeyFunction} (h : looksAt c p f)
      (hparse : p.parse f.path f.text = .ok q) (hclean : q.tree = .ok root)
      (hreports : List.Forall₂ (Reports q f.path root) (root.preorder.filter (isAbove o q.grammar))
        xs) : FoundIn c p o f xs

variable (c : Classification) (p : Parser) (o : Options)

/-- A node is reported if it is above the minimum, and only then. -/
theorem functionAt?_eq (q : Parsed) (path : String) (parent : Option SyntaxTree) (t : SyntaxTree) :
    functionAt? o path q parent t =
      if isAbove o q.grammar t then
        some ⟨nameOf q.source parent t, path, cyclomaticComplexity (.ofGrammar q.grammar) t,
          t.lineIn q.source, (placeOf q.source t.label.stop).1 + 1⟩
      else none := by
  rw [functionAt?, isAbove]
  dsimp only
  cases (functionKinds q.grammar).contains t.kind with
  | false => rfl
  | true =>
    by_cases h : (cyclomaticComplexity (.ofGrammar q.grammar) t : Int) ≤ o.minComplexity
    · simp [h]
    · simp [h, Int.not_le.1 h]

/-- A clean tree has one function for each of its nodes above the minimum. -/
theorem reports_functionsOf {q : Parsed} {root : SyntaxTree} (hclean : q.tree = .ok root)
    (path : String) :
    List.Forall₂ (Reports q path root) (root.preorder.filter (isAbove o q.grammar))
      (functionsOf o path q) := by
  have hlisted (ns : List (Option SyntaxTree × SyntaxTree)) (hns : ns ⊆ root.withParents none) :
      List.Forall₂ (Reports q path root) ((ns.map Prod.snd).filter (isAbove o q.grammar))
        (ns.filterMap fun n => functionAt? o path q n.1 n.2) := by
    induction ns with
    | nil => exact .nil
    | cons n ns ih =>
      obtain ⟨hn, hns⟩ := List.cons_subset.1 hns
      rw [List.map_cons, List.filter_cons, List.filterMap_cons, functionAt?_eq]
      split_ifs with habove
      · exact .cons ⟨rfl, rfl, rfl, rfl, n.1, hn, rfl⟩ (ih hns)
      · exact ih hns
  have hall := hlisted (root.withParents none) (List.Subset.refl _)
  rw [map_snd_withParents] at hall
  rw [functionsOf, hclean]
  exact hall

/-- What is found in the files that are looked at is found in all files. -/
theorem exists_foundIn {files : List SourceFile} {ys : List (List KeyFunction)}
    (h : List.Forall₂ (fun f xs => ∃ q, p.parse f.path f.text = .ok q ∧ functionsOf o f.path q = xs)
      (files.filter (looksAt c p)) ys) :
    ∃ found, List.Forall₂ (FoundIn c p o) files found ∧ found.flatten = ys.flatten := by
  induction files generalizing ys with
  | nil =>
    cases h
    exact ⟨[], .nil, rfl⟩
  | cons f files ih =>
    by_cases hlooks : looksAt c p f
    · rw [List.filter_cons_of_pos hlooks, List.forall₂_cons_left_iff] at h
      obtain ⟨xs, ys, ⟨q, hparse, hxs⟩, hrest, rfl⟩ := h
      obtain ⟨found, hfound, hflatten⟩ := ih hrest
      refine ⟨xs :: found, .cons ?_ hfound, by rw [List.flatten_cons, List.flatten_cons, hflatten]⟩
      cases htree : q.tree with
      | error e =>
        rw [functionsOf, htree] at hxs
        exact hxs ▸ .unclean hlooks hparse htree
      | ok root => exact .clean hlooks hparse htree (hxs ▸ reports_functionsOf o htree f.path)
    · rw [List.filter_cons_of_neg hlooks] at h
      obtain ⟨found, hfound, hflatten⟩ := ih h
      exact ⟨[] :: found, .cons (.unseen (Bool.not_eq_true _ ▸ hlooks)) hfound, hflatten⟩

/-- A function that is found comes from a node of a clean tree. -/
theorem exists_of_mem_found {files : List SourceFile} {found : List (List KeyFunction)}
    (h : List.Forall₂ (FoundIn c p o) files found) {x : KeyFunction} (hx : x ∈ found.flatten) :
    ∃ f ∈ files, ∃ q root, looksAt c p f ∧ p.parse f.path f.text = .ok q ∧ q.tree = .ok root ∧
      ∃ t ∈ root.preorder, isAbove o q.grammar t ∧ Reports q f.path root t x := by
  obtain ⟨xs, hxs, hx⟩ := List.mem_flatten.1 hx
  obtain ⟨f, hf, hfound⟩ := Outcome.exists_of_mem_forall₂ h hxs
  cases hfound with
  | unseen _ => exact absurd hx List.not_mem_nil
  | unclean _ _ _ => exact absurd hx List.not_mem_nil
  | clean hlooks hparse hclean hreports =>
    obtain ⟨t, ht, hreports⟩ := Outcome.exists_of_mem_forall₂ hreports hx
    obtain ⟨hmem, habove⟩ := List.mem_filter.1 ht
    exact ⟨f, hf, _, _, hlooks, hparse, hclean, t, hmem, habove, hreports⟩

/-- What is reported are the first functions found, in the order of their rank. -/
theorem functions_eq_ok_iff {files : List SourceFile} {xs : List KeyFunction} :
    functions c p o files = .ok xs ↔
      ∃ ys, List.Forall₂ (fun f xs => ∃ q, p.parse f.path f.text = .ok q ∧
        functionsOf o f.path q = xs)
          (files.filter (looksAt c p)) ys ∧
        upTo o.limit (ys.flatten.mergeSort ranksBefore) = xs := by
  rw [functions, Outcome.bind_eq_ok]
  refine exists_congr fun ys => and_congr ?_ ⟨Except.ok.inj, congrArg _⟩
  rw [Outcome.mapM_eq_ok_iff]
  have hstep (f : SourceFile) (xs : List KeyFunction) :
      (do return functionsOf o f.path (← p.parse f.path f.text)) = Except.ok (ε := Failure) xs ↔
        ∃ q, p.parse f.path f.text = .ok q ∧ functionsOf o f.path q = xs := by
    rw [Outcome.bind_eq_ok]
    exact exists_congr fun q => and_congr Iff.rfl ⟨Except.ok.inj, congrArg _⟩
  simp only [hstep]

/-- Functions are reported exactly if the parser gives an answer for each file that is looked at. -/
theorem exists_functions_iff {files : List SourceFile} :
    (∃ xs, functions c p o files = .ok xs) ↔ ∀ f ∈ files, looksAt c p f →
      ∃ q, p.parse f.path f.text = .ok q := by
  have hlimit : (∃ xs, functions c p o files = .ok xs) ↔
      ∃ ys, List.Forall₂ (fun f xs => ∃ q, p.parse f.path f.text = .ok q ∧
        functionsOf o f.path q = xs)
        (files.filter (looksAt c p)) ys := by
    simp only [functions_eq_ok_iff]
    exact ⟨fun ⟨_, ys, hys, _⟩ => ⟨ys, hys⟩, fun ⟨ys, hys⟩ => ⟨_, ys, hys, rfl⟩⟩
  rw [hlimit, Outcome.exists_forall₂_iff]
  simp only [List.mem_filter, and_imp]
  refine forall_congr' fun f => forall_congr' fun _ => forall_congr' fun _ => ?_
  exact ⟨fun ⟨_, q, hparse, _⟩ => ⟨q, hparse⟩, fun ⟨q, hparse⟩ => ⟨_, q, hparse, rfl⟩⟩

/-- **Key functions agree with their files and their rank.** Functions are reported exactly if the
parser gives an answer for each file that is looked at. They are then what the limit leaves of all
functions found, one for each function node of a clean tree above the minimum, in the order of
rank; so they are in this order too, and a limit that is not negative leaves out no function that
ranks before one that is reported. Each of them comes from a file with a clean tree, is above the
minimum and, unless the text of the file is blank, no more complex than the metric of the file that
scoring all files gives. -/
theorem functions_ranked (hp : p.Sizable) (batchSize : Int) {files : List SourceFile}
    (hpaths : (files.map (·.path)).Nodup) :
    ((∃ xs, functions c p o files = .ok xs) ↔ ∀ f ∈ files, looksAt c p f →
      ∃ q, p.parse f.path f.text = .ok q) ∧ ∀ xs, functions c p o files = .ok xs → ∃ found all,
        List.Forall₂ (FoundIn c p o) files found ∧ all.Perm found.flatten ∧
        all.Pairwise (fun x y => rank x ≤ rank y) ∧ xs = upTo o.limit all ∧
        xs.Pairwise (fun x y => rank x ≤ rank y) ∧
        (0 ≤ o.limit → ∀ x ∈ xs, ∀ y ∈ all.drop o.limit.toNat, rank x ≤ rank y) ∧
        ∀ x ∈ xs, ∃ f ∈ files, ∃ q root, looksAt c p f ∧ p.parse f.path f.text = .ok q ∧
          q.tree = .ok root ∧ x.path = f.path ∧ o.minComplexity < x.complexity ∧
          ((Text.trim f.text.toList).isEmpty = false →
            ∃ ms m, (Quality.scoreFiles c p batchSize (fun _ =>
              false) files).outcome.value = .ok ms ∧
              Quality.find? x.path ms = some m ∧ (x.complexity : ℤ) ≤ m.complexity) := by
  refine ⟨exists_functions_iff c p o, fun xs hxs => ?_⟩
  obtain ⟨ys, hys, rfl⟩ := (functions_eq_ok_iff c p o).1 hxs
  obtain ⟨found, hfound, hflatten⟩ := exists_foundIn c p o hys
  have hranked := pairwise_ranked ys.flatten
  have hhead := upTo_isPrefix o.limit (ys.flatten.mergeSort ranksBefore)
  refine ⟨found, _, hfound, hflatten ▸ List.mergeSort_perm _ _, hranked, rfl,
    hranked.sublist hhead.sublist, ?_, ?_⟩
  · intro hlimit x hx y hy
    rw [upTo_of_nonneg hlimit] at hx
    rw [← List.take_append_drop o.limit.toNat (ys.flatten.mergeSort ranksBefore),
      List.pairwise_append] at hranked
    exact hranked.2.2 x hx y hy
  · intro x hx
    have hmem : x ∈ found.flatten :=
      hflatten ▸ (List.mergeSort_perm _ _).mem_iff.1 (hhead.subset hx)
    obtain ⟨f, hf, q, root, hlooks, hparse, hclean, t, ht, habove, hreports⟩ :=
      exists_of_mem_found c p o hfound hmem
    refine ⟨f, hf, q, root, hlooks, hparse, hclean, hreports.path, ?_, fun htext => ?_⟩
    · rw [isAbove, Bool.and_eq_true, decide_eq_true_eq] at habove
      rw [hreports.complexity]
      exact habove.2
    · rw [looksAt, Bool.and_eq_true, Bool.and_eq_true] at hlooks
      refine ⟨_, _, Quality.value_scoreFiles c p batchSize hpaths,
        hreports.path ▸ Quality.find?_scores c p hpaths hf, ?_⟩
      rw [Quality.complexity_score hp hlooks.1.2 hlooks.2 htext hparse hclean, hreports.complexity]
      exact_mod_cast cyclomaticComplexity_le (.ofGrammar q.grammar) ht

/-- Of a function within a function one is reported, no more complex than the file. -/
theorem functions_ranked_of_nested :
    let inner : SyntaxTree :=
      .node { kind := "arrow_function", start := 26, stop := 44 }
        [.node { kind := "if_statement", start := 34, stop := 42 } []]
    let outer : SyntaxTree :=
      .node { kind := "function_declaration", start := 0, stop := 46 }
        [.node { kind := "identifier", start := 9, stop := 10, field := some "name" } [],
          .node { kind := "if_statement", start := 15, stop := 44 } [inner]]
    let p : Parser :=
      ⟨standardGrammars,
        fun _ _ => .ok (.node { kind := "program", start := 0, stop := 46 } [outer])⟩
    let file : SourceFile :=
      { path := "a.js", content := some "function f() { if (a) b = () => { if (c) d } }" }
    let files : List SourceFile := [file, { path := "b.md", content := some "text" }]
    let o : Options := { minComplexity := 1, limit := 1 }
    p.Sizable ∧ (files.map (·.path)).Nodup ∧
      ∃ xs, functions .standard p o files = .ok xs ∧ xs.length = 1 ∧
        ∀ x ∈ xs, 1 < (x.complexity : ℤ) ∧
          ∃ ms m, (Quality.scoreFiles .standard p 25 (fun _ =>
            false) files).outcome.value = .ok ms ∧
            Quality.find? x.path ms = some m ∧ (x.complexity : ℤ) ≤ m.complexity := by
  intro inner outer p file files o
  have hsizable : p.Sizable := by
    have hpower (e : ℕ) (he : 3 ≤ e) : 6 < 2 ^ e :=
      Nat.lt_of_lt_of_le (by decide) (Nat.pow_le_pow_right Nat.two_pos he)
    intro grammar source t ht
    obtain rfl := Except.ok.inj ht
    exact hpower 1023 (by decide)
  have hpaths : (files.map (·.path)).Nodup := by decide
  have hblank : ∀ f ∈ files, (Text.trim f.text.toList).isEmpty = false := by decide +kernel
  have hlooks : files.filter (looksAt .standard p) = [file] := by decide +kernel
  let q : Parsed :=
    ⟨"javascript", Utf8.encode file.text,
      .ok (.node { kind := "program", start := 0, stop := 46 } [outer])⟩
  have hgrammar : p.grammarFor? file.path = some "javascript" := by decide +kernel
  have hparse : p.parse file.path file.text = .ok q := by
    rw [Parser.parse, hgrammar]
    rfl
  have hfound : (functionsOf o file.path q).length = 2 := by
    simp only [functionsOf, functionAt?, cyclomaticComplexity_eq]
    decide +kernel
  obtain ⟨xs, hxs, hlength⟩ : ∃ xs, functions .standard p o files = .ok xs ∧ xs.length = 1 := by
    refine ⟨_, (functions_eq_ok_iff .standard p o).2 ⟨[functionsOf o file.path q], ?_, rfl⟩, ?_⟩
    · rw [hlooks]
      exact .cons ⟨q, hparse, rfl⟩ .nil
    · rw [upTo_of_nonneg (by decide), List.length_take, List.length_mergeSort,
        List.flatten_singleton, hfound]
      rfl
  obtain ⟨-, -, -, -, -, -, -, -, hfiles⟩ :=
    (functions_ranked .standard p o hsizable 25 hpaths).2 xs hxs
  refine ⟨hsizable, hpaths, xs, hxs, hlength, fun x hx => ?_⟩
  obtain ⟨f, hf, -, -, -, -, -, -, habove, hscored⟩ := hfiles x hx
  exact ⟨habove, hscored (hblank f hf)⟩

end KeyFunctions
end CodeSurvey
