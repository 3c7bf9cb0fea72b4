/-
# Import lines of Python in a tree

How a clean tree of a source lists its import lines (`Python.ListedBy`): one node for each line,
with a child for each module or name, under its alias or bare.

| line | node | its field `module_name` |
| --- | --- | --- |
| `import a, b as c` | `import_statement` | |
| `from m import a` | `import_from_statement` | a dotted name |
| `from __future__ import a` | `future_import_statement` | |
| `from ..m import a` | `import_from_statement` | the dots, then a dotted name or nothing |

From such a tree all modules of a line are read. The patterns find the same in the same order except
on two kinds of lines: of an `import` with several modules they find the first alone, and they take
`__future__` for a module (`Python.specifiers_of_listed`).
-/

import CodeSurvey.Import.FromTree
import CodeSurvey.Proofs.Import.Python
import Mathlib.Data.List.Flatten

namespace CodeSurvey
namespace FromText
namespace Python

open FromTree

/-- The module whose import only sets how a source is read. -/
def futureModule : List Char := "__future__".toList

namespace ImportLine

/-- Whether the line sets how the source is read. -/
def IsFuture : ImportLine → Prop
  | names module _ _ => module.text = futureModule
  | modules .. | relative .. => False

/-- Whether the line is no `import` of several modules. -/
def NamesOne : ImportLine → Prop
  | modules _ rest => rest = []
  | names .. | relative .. => True

/-- The specifiers that a tree gives for the line. -/
def listed : ImportLine → List (List Char)
  | modules first rest => (first :: rest).map fun x => x.1.text
  | names module _ _ => if module.text = futureModule then [] else [module.text]
  | relative climbs (some module) _ _ => [relativeSpecifier (climbs + 1 : Nat) module.text]
  | relative climbs none first rest =>
    (first :: rest).map fun x => relativeSpecifier (climbs + 1 : Nat) x.1.text

end ImportLine

/-- A child that stands for a text that is imported: a dotted name, or one with an alias. -/
inductive ItemAt (source : List UInt8) (text : List Char) : Option Name → SyntaxTree → Prop
  | bare {t : SyntaxTree} : t.kind = "dotted_name" → t.textIn source = String.ofList text →
      ItemAt source text none t
  | aliased {a : Name} {t name : SyntaxTree} : t.kind = "aliased_import" →
      t.child? "name" = some name →
      name.kind = "dotted_name" → name.textIn source = String.ofList text →
        ItemAt source text (some a) t

/-- The children of a node in the field `name`: one for each module or name
that its line imports. -/
def ItemsAt {α : Type} (source : List UInt8) (text : α → List Char) (items : List (α × Option Name))
    (t : SyntaxTree) : Prop :=
  List.Forall₂ (fun x => ItemAt source (text x.1) x.2) items (t.childrenIn "name")

/-- The children of a relative module: its dots, and behind them its dotted name if it has one. -/
inductive RelativeTo (source : List UInt8) (climbs : Nat) : Option Module → List SyntaxTree → Prop
  | package {dots : SyntaxTree} : dots.kind = "import_prefix" →
      dots.textIn source = String.ofList (dotsText climbs) → RelativeTo source climbs none [dots]
  | module {m : Module} {dots name : SyntaxTree} : dots.kind = "import_prefix" →
      dots.textIn source = String.ofList (dotsText climbs) → name.kind = "dotted_name" →
      name.textIn source = String.ofList m.text → RelativeTo source climbs (some m) [dots, name]

/-- A node that stands for an import line. -/
inductive ListedBy (source : List UInt8) : ImportLine → SyntaxTree → Prop
  | modules {first : Module × Option Name} {rest : List (Module × Option Name)} {t : SyntaxTree} :
      t.kind = "import_statement" → ItemsAt source Module.text (first :: rest) t →
        ListedBy source (.modules first rest) t
  | future {m : Module} {first : Name × Option Name} {rest : List (Name × Option Name)}
      {t : SyntaxTree} :
      m.text = futureModule → t.kind = "future_import_statement" →
      ItemsAt source Name.text (first :: rest) t → ListedBy source (.names m first rest) t
  | names {m : Module} {first : Name × Option Name} {rest : List (Name × Option Name)}
      {t module : SyntaxTree} :
      m.text ≠ futureModule → t.kind = "import_from_statement" →
      t.child? "module_name" = some module →
      module.kind = "dotted_name" → module.textIn source = String.ofList m.text →
      ItemsAt source Name.text (first :: rest) t → ListedBy source (.names m first rest) t
  | relative {climbs : Nat} {m : Option Module} {first : Name × Option Name}
      {rest : List (Name × Option Name)}
      {t module : SyntaxTree} :
      t.kind = "import_from_statement" → t.child? "module_name" = some module →
      module.kind = "relative_import" →
      RelativeTo source climbs m module.children → ItemsAt source Name.text (first :: rest) t →
      ListedBy source (.relative climbs m first rest) t

/-- Whether a node stands for an import line. -/
def isImport (t : SyntaxTree) : Bool :=
  ["import_statement", "import_from_statement", "future_import_statement"].contains t.kind

section Reading

variable {source : List UInt8} {t : SyntaxTree}

theorem target?_of_itemAt {text : List Char} {a : Option Name} (h : ItemAt source text a t) :
    (target? t).map (·.textIn source) = some (String.ofList text) := by
  cases h with
  | bare hkind htext => simp [target?, hkind, htext]
  | aliased hkind hname _ htext => simp [target?, hkind, hname, htext]

/-- The texts of the children that stand for modules or names, without their aliases. -/
theorem targets_of_itemsAt {α : Type} {text : α → List Char} {items : List (α × Option Name)}
    (h : ItemsAt source text items t) :
    ((t.childrenIn "name").filterMap target?).map (·.textIn source) = items.map fun x =>
      String.ofList (text x.1) := by
  unfold ItemsAt at h
  generalize t.childrenIn "name" = nodes at h ⊢
  induction h with
  | nil => rfl
  | cons hitem _ ih =>
    obtain ⟨name, hname, htext⟩ := Option.map_eq_some_iff.1 (target?_of_itemAt hitem)
    rw [List.filterMap_cons_some hname, List.map_cons, List.map_cons, htext, ih]

theorem relativeParts_of_relativeTo {climbs : Nat} {m : Option Module}
    (h : RelativeTo source climbs m t.children) :
    relativeParts source t = (climbs + 1, String.ofList (m.elim [] Module.text)) := by
  have hdots : (dotsText climbs).count '.' = climbs + 1 := List.count_replicate_self
  generalize hchildren : t.children = children at h
  cases h with
  | package hkind htext => simp [relativeParts, hchildren, hkind, htext, hdots]
  | module hkind htext hname hmodule => simp [relativeParts, hchildren, hkind, htext, hdots,
      hname, hmodule]

theorem pythonAt_eq_nil (h : isImport t = false) : pythonAt source t = [] := by
  simp only [isImport, List.contains_cons, List.contains_nil, Bool.or_false,
    Bool.or_eq_false_iff] at h
  simp [pythonAt, h.1, h.2.1]

/-- The specifiers of an `import` are the texts of its modules. -/
theorem specifiers_pythonAt_import (hkind : t.kind = "import_statement") :
    (pythonAt source t).map (·.specifier) =
    ((t.childrenIn "name").filterMap target?).map (·.textIn source) := by
  simp only [pythonAt, hkind, beq_self_eq_true, if_true, List.map_map]
  rfl

/-- The specifiers of a `from` with dots are its module, or each of its
names, seen from the dots. -/
theorem specifiers_pythonAt_relative {module : SyntaxTree}
    (hkind : t.kind = "import_from_statement") (hmodule : t.child? "module_name" = some module)
    (hrelative : module.kind = "relative_import") {dots : Nat} {dotted : String}
    (hparts : relativeParts source module = (dots, dotted)) :
    (pythonAt source t).map (·.specifier) =
      (if dotted.isEmpty then ((t.childrenIn "name").filterMap target?).map (·.textIn source)
        else [dotted]).map
        fun name => String.ofList (relativeSpecifier dots name.toList) := by
  by_cases hdotted : dotted.isEmpty = true
  · simp [pythonAt, hkind, hmodule, hrelative, hparts, hdotted]
  · simp [pythonAt, hkind, hmodule, hrelative, hparts, hdotted]

/-- **A node gives what its line lists**. -/
theorem specifiers_pythonAt {l : ImportLine} (h : ListedBy source l t) :
    (pythonAt source t).map (·.specifier) = l.listed.map String.ofList := by
  cases h with
  | modules hkind hitems =>
    rw [specifiers_pythonAt_import hkind, targets_of_itemsAt hitems, ImportLine.listed,
      List.map_map]
    rfl
  | future hm hkind => simp [pythonAt, hkind, ImportLine.listed, hm]
  | names hm hkind hmodule hdotted htext => simp [pythonAt, hkind, hmodule, hdotted, htext,
      ImportLine.listed, hm]
  | @relative climbs m first rest _ _ hkind hmodule hrelative hparts hitems =>
    rw [specifiers_pythonAt_relative hkind hmodule hrelative (relativeParts_of_relativeTo hparts),
      targets_of_itemsAt hitems]
    cases m with
    | none =>
      simp [ImportLine.listed]
    | some m =>
      have hne : m.text ≠ [] := by
        obtain ⟨c, cs, h, -⟩ := m.exists_cons
        exact h ▸ List.cons_ne_nil c cs
      simp [ImportLine.listed, hne]

/-- **A tree gives what its lines list**, in order. -/
theorem specifiers_imports {imports : List ImportLine} {root : SyntaxTree}
    (h : List.Forall₂ (ListedBy source) imports (root.walk.filter isImport)) :
    (FromTree.imports "python" source root).map (·.specifier) =
      (imports.flatMap ImportLine.listed).map String.ofList := by
  have hnodes (nodes : List SyntaxTree) : nodes.flatMap (pythonAt source) =
      (nodes.filter isImport).flatMap (pythonAt source) := by
    induction nodes with
    | nil => rfl
    | cons t nodes ih =>
      by_cases himport : isImport t = true
      · rw [List.filter_cons_of_pos himport, List.flatMap_cons, List.flatMap_cons, ih]
      · rw [List.filter_cons_of_neg himport, List.flatMap_cons,
          pythonAt_eq_nil (Bool.not_eq_true _ ▸ himport), List.nil_append, ih]
  have htree : FromTree.imports "python" source root = root.walk.flatMap (pythonAt source) := rfl
  rw [htree, hnodes]
  generalize root.walk.filter isImport = nodes at h
  induction h with
  | nil => rfl
  | cons hline _ ih =>
    rw [List.flatMap_cons, List.map_append, specifiers_pythonAt hline, ih, ← List.map_append,
      List.flatMap_cons]

end Reading

/-- A file of Python whose tree is clean is read from its tree. -/
theorem extract_of_clean {p : Parser} {path content : String} {root : SyntaxTree}
    (hgrammar : p.grammarFor? path = some "python") (hroot : p.tree "python" content = .ok root)
    (hclean : root.label.broken = false) :
    FromTree.extract p path content =
      .ok (some (FromTree.imports "python" (Utf8.encode content) root)) := by
  have hknown : checkGrammar "python" = .ok () := rfl
  have hparse : p.parse path content = .ok ⟨"python", Utf8.encode content, .ok root⟩ := by
    rw [Parser.parse, hgrammar]
    simp only [hknown, hroot, bind, Except.bind, hclean, Bool.false_eq_true, if_false]
    rfl
  rw [FromTree.extract, hparse]
  rfl

section Comparing

/-- Lists that are sublists one by one are the same when they are the same as a whole. -/
theorem flatMap_eq_iff_of_sublist {α β : Type} {f g : α → List β} {l : List α}
    (h : ∀ x ∈ l, (f x).Sublist (g x)) : l.flatMap f = l.flatMap g ↔ ∀ x ∈ l, f x = g x := by
  refine ⟨fun heq => ?_, List.flatMap_congr⟩
  induction l with
  | nil => exact List.forall_mem_nil _
  | cons x l ih =>
    obtain ⟨hx, hl⟩ := List.forall_mem_cons.1 h
    have hrest := (List.Sublist.flatMap_right l hl).length_le
    have hsum := congrArg List.length heq
    rw [List.flatMap_cons, List.flatMap_cons, List.length_append, List.length_append] at hsum
    have hfirst := hx.eq_of_length (by have := hx.length_le; omega)
    rw [List.flatMap_cons, List.flatMap_cons, hfirst] at heq
    exact List.forall_mem_cons.2 ⟨hfirst, ih hl (List.append_cancel_left heq)⟩

namespace ImportLine

variable {l : ImportLine}

theorem legible_sublist_listed (h : ¬l.IsFuture) : l.legible.Sublist l.listed := by
  cases l with
  | modules first rest => exact List.singleton_sublist.2 (List.mem_cons_self ..)
  | names module first rest =>
    have hmodule : module.text ≠ futureModule := h
    rw [listed, if_neg hmodule, legible]
  | relative climbs module first rest => cases module <;> exact List.Sublist.refl _

theorem legible_eq_listed_iff (h : ¬l.IsFuture) : l.legible = l.listed ↔ l.NamesOne := by
  cases l with
  | modules first rest => simp [legible, listed, NamesOne]
  | names module first rest =>
    have hmodule : module.text ≠ futureModule := h
    simp [legible, listed, NamesOne, hmodule]
  | relative climbs module first rest => cases module <;> simp [legible, listed, NamesOne]

end ImportLine

end Comparing

/-- **The patterns agree with a tree on all lines but those of several modules.** The lines
of a source are read from a tree in full. Where none of them sets how the source is read,
the patterns find a part of that in the same order, and all of it exactly when every
`import` names one module. -/
theorem specifiers_of_listed {p : Parser} {path : String}
    (hpath : extensionOf path ∈ pythonExtensions) (hgrammar : p.grammarFor? path = some "python")
    (ended : Bool) {imports : List ImportLine} {content : String}
    (hcontent : content = String.ofList (printed ended imports)) {root : SyntaxTree}
    (hroot : p.tree "python" content = .ok root) (hclean : root.label.broken = false)
    (hlisted : List.Forall₂ (ListedBy (Utf8.encode content)) imports (root.walk.filter isImport)) :
    ∃ references, FromTree.extract p path content = .ok (some references) ∧
      references.map (·.specifier) = (imports.flatMap ImportLine.listed).map String.ofList ∧
      (extract path content).map (·.specifier) =
        (imports.flatMap ImportLine.legible).map String.ofList ∧
      ((∀ l ∈ imports, ¬l.IsFuture) →
        ((extract path content).map (·.specifier)).Sublist (references.map (·.specifier)) ∧
        ((extract path content).map (·.specifier) = references.map (·.specifier) ↔
          ∀ l ∈ imports, l.NamesOne)) := by
  have htext : (extract path content).map (·.specifier) =
      (imports.flatMap ImportLine.legible).map String.ofList := by
    rw [hcontent, extract_of_python hpath, List.map_flatMap, List.map_flatMap]
    conv_rhs => rw [← List.zipIdx_map_fst 1 imports, List.flatMap_map]
    exact List.flatMap_congr fun x _ => by rw [List.map_map]; rfl
  refine ⟨_, extract_of_clean hgrammar hroot hclean, specifiers_imports hlisted, htext,
    fun hfuture => ?_⟩
  have hsublist : ∀ l ∈ imports, l.legible.Sublist l.listed :=
    fun l hl => ImportLine.legible_sublist_listed (hfuture l hl)
  rw [htext, specifiers_imports hlisted]
  refine ⟨(List.Sublist.flatMap_right imports hsublist).map _, ?_⟩
  rw [(List.map_injective_iff.2 fun _ _ => String.ofList_injective).eq_iff,
    flatMap_eq_iff_of_sublist hsublist]
  exact forall₂_congr fun l hl => ImportLine.legible_eq_listed_iff (hfuture l hl)

section Samples

/-- A keyword or a sign of a sample. -/
def tokenAt (text : String) (start : Nat) : SyntaxTree :=
  .node { kind := text, start := start, stop := start + text.length, named := false } []

/-- A name of a sample. -/
def nameAt (start width : Nat) (field : Option String) : SyntaxTree :=
  .node { kind := "identifier", start := start, stop := start + width, field := field } []

/-- A dotted name of a sample, which has one part. -/
def dottedAt (start width : Nat) (field : Option String) : SyntaxTree :=
  .node { kind := "dotted_name", start := start, stop := start + width, field := field }
    [nameAt start width none]

/-- A name of one letter under an alias of one letter. -/
def aliasedAt (start : Nat) : SyntaxTree :=
  .node { kind := "aliased_import", start := start, stop := start + 6, field := some "name" }
    [dottedAt start 1 (some "name"), tokenAt "as" (start + 2), nameAt (start + 5) 1 (some "alias")]

/-- Four lines, the first of which imports two modules. -/
theorem specifiers_of_listed_of_four_lines :
    let a : Name := ⟨['a'], by decide, List.forall_mem_singleton.2 (by decide)⟩
    let b : Name := ⟨['b'], by decide, List.forall_mem_singleton.2 (by decide)⟩
    let imports : List ImportLine :=
      [.modules (⟨a, []⟩, none) [(⟨b, []⟩, some a)], .names ⟨a, []⟩ (b, none) [],
        .relative 1 (some ⟨a, []⟩) (b, some a) [], .relative 0 none (a, none) [(b, none)]]
    let content := "import a, b as a\nfrom a import b\nfrom ..a import b as a\nfrom . import a, b\n"
    let lines : List SyntaxTree :=
      [.node { kind := "import_statement", start := 0, stop := 16 }
          [tokenAt "import" 0, dottedAt 7 1 (some "name"), tokenAt "," 8, aliasedAt 10],
        .node { kind := "import_from_statement", start := 17, stop := 32 }
          [tokenAt "from" 17, dottedAt 22 1 (some "module_name"), tokenAt "import" 24,
            dottedAt 31 1 (some "name")],
        .node { kind := "import_from_statement", start := 33, stop := 55 }
          [tokenAt "from" 33,
            .node { kind := "relative_import", start := 38, stop := 41,
                    field := some "module_name" }
              [.node { kind := "import_prefix", start := 38, stop := 40 } [tokenAt "." 38,
                tokenAt "." 39], dottedAt 40 1 none],
            tokenAt "import" 42, aliasedAt 49],
        .node { kind := "import_from_statement", start := 56, stop := 74 }
          [tokenAt "from" 56,
            .node { kind := "relative_import", start := 61, stop := 62,
                    field := some "module_name" }
              [.node { kind := "import_prefix", start := 61, stop := 62 } [tokenAt "." 61]],
            tokenAt "import" 63, dottedAt 70 1 (some "name"), tokenAt "," 71,
            dottedAt 73 1 (some "name")]]
    let root : SyntaxTree := .node { kind := "module", start := 0, stop := 75 } lines
    let p : Parser := ⟨standardGrammars, fun _ _ => .ok root⟩
    extensionOf "m.py" ∈ pythonExtensions ∧ p.grammarFor? "m.py" = some "python" ∧
      content = String.ofList (printed true imports) ∧ p.tree "python" content = .ok root ∧
      root.label.broken = false ∧
      List.Forall₂ (ListedBy (Utf8.encode content)) imports (root.walk.filter isImport) ∧
      ∃ references, FromTree.extract p "m.py" content = .ok (some references) ∧
        references.map (·.specifier) = ["a", "b", "a", "../a", "./a", "./b"] ∧
        (extract "m.py" content).map (·.specifier) = ["a", "a", "../a", "./a", "./b"] := by
  intro a b imports content lines root p
  have hpath : extensionOf "m.py" ∈ pythonExtensions := by decide
  have hgrammar : p.grammarFor? "m.py" = some "python" := by decide
  have hcontent : content = String.ofList (printed true imports) := by decide +kernel
  have hwalk : root.walk.filter isImport = lines := by
    simp [root, lines, SyntaxTree.walk, SyntaxTree.walkStack, SyntaxTree.children, tokenAt, nameAt,
      dottedAt, aliasedAt, isImport, SyntaxTree.kind, SyntaxTree.label]
  have hlisted : List.Forall₂ (ListedBy (Utf8.encode content)) imports
      (root.walk.filter isImport) := by
    rw [hwalk]
    refine .cons (.modules rfl (.cons (.bare rfl ?_) (.cons (.aliased rfl rfl rfl ?_) .nil))) <|
      .cons (.names ?_ rfl rfl rfl ?_ (.cons (.bare rfl ?_) .nil)) <|
      .cons (.relative rfl rfl rfl (.module rfl ?_ rfl ?_)
        (.cons (.aliased rfl rfl rfl ?_) .nil)) <|
      .cons (.relative rfl rfl rfl (.package rfl ?_)
        (.cons (.bare rfl ?_) (.cons (.bare rfl ?_) .nil))) .nil
    all_goals decide +kernel
  obtain ⟨references, htree, hspecifiers, htext, -⟩ :=
    specifiers_of_listed hpath hgrammar true hcontent rfl rfl hlisted
  exact ⟨hpath, hgrammar, hcontent, rfl, rfl, hlisted, references, htree,
    hspecifiers.trans (by decide +kernel), htext.trans (by decide +kernel)⟩

/-- Of two modules in one `import` the patterns find the first, the tree gives both. -/
theorem import_of_two_modules_differs :
    let os : Name := ⟨"os".toList, by decide, List.all_iff_forall_prop.1 (by decide)⟩
    let sys : Name := ⟨"sys".toList, by decide, List.all_iff_forall_prop.1 (by decide)⟩
    let imports : List ImportLine := [.modules (⟨os, []⟩, none) [(⟨sys, []⟩, none)]]
    let content := "import os, sys\n"
    let line : SyntaxTree := .node { kind := "import_statement", start := 0, stop := 14 }
      [tokenAt "import" 0, dottedAt 7 2 (some "name"), tokenAt "," 9, dottedAt 11 3 (some "name")]
    let root : SyntaxTree := .node { kind := "module", start := 0, stop := 15 } [line]
    let p : Parser := ⟨standardGrammars, fun _ _ => .ok root⟩
    content = String.ofList (printed true imports) ∧
      List.Forall₂ (ListedBy (Utf8.encode content)) imports (root.walk.filter isImport) ∧
      FromTree.extract p "a.py" content = .ok (some [⟨"os", .plain, 1⟩, ⟨"sys", .plain, 1⟩]) ∧
      extract "a.py" content = [⟨"os", .plain, 1⟩] := by
  intro os sys imports content line root p
  have hwalk : root.walk.filter isImport = [line] := by
    simp [root, line, SyntaxTree.walk, SyntaxTree.walkStack, SyntaxTree.children, tokenAt, nameAt,
      dottedAt, isImport, SyntaxTree.kind, SyntaxTree.label]
  refine ⟨by decide +kernel, ?_, ?_, by decide +kernel⟩
  · rw [hwalk]
    refine .cons (.modules rfl (.cons (.bare rfl ?_) (.cons (.bare rfl ?_) .nil))) .nil
    all_goals decide +kernel
  · rw [extract_of_clean (show p.grammarFor? "a.py" = some "python" by decide)
      (show p.tree "python" content = .ok root from rfl) rfl]
    have himports : FromTree.imports "python" (Utf8.encode content) root =
        [⟨"os", .plain, 1⟩, ⟨"sys", .plain, 1⟩] := by decide +kernel
    rw [himports]

end Samples

end Python
end FromText
end CodeSurvey
