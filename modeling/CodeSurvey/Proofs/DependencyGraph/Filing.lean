/-
# Where imports are filed

Each import that is followed adds at most one thing to the links: an entry among the packages,
an entry among the dead ends, or an edge (`Links.follow_cases`). So after all files the links
hold what some specifier of some file added and nothing else (`foldl_followFile_iff`), also
where two files share a path.

A specifier that starts at the directory of its file or at the one above is never filed as a
package, unless it is `..` and nothing more, which is not taken for relative
(`Resolve.isRelative_iff`, `parent_filed_as_package`). It is a dead end or leads to a file
(`buildWith_files_relative`).
-/

import CodeSurvey.Proofs.DependencyGraph.Accounting
import CodeSurvey.Proofs.Text

namespace CodeSurvey

open Text

namespace Resolve

/-- Whether a specifier starts at the directory of its file or at the one above: its first
segment is `.` or `..`. -/
def StartsAtDirectory (specifier : String) : Prop :=
  (fields '/' specifier.toList).head? = some ['.'] ∨
    (fields '/' specifier.toList).head? = some ['.', '.']

instance (specifier : String) : Decidable (StartsAtDirectory specifier) :=
  inferInstanceAs (Decidable (_ ∨ _))

/-- A text whose first field is known is this field, or goes on after it with a separator. -/
theorem head?_fields_eq_some_iff {sep : Char} {f : List Char} (hf : sep ∉ f) (cs : List Char) :
    (fields sep cs).head? = some f ↔ cs = f ∨ (f ++ [sep]) <+: cs := by
  constructor
  · intro hhead
    obtain ⟨rest, hfields⟩ := List.head?_eq_some_iff.1 hhead
    have hcs : cs = Path.joinWith sep (f :: rest) := by rw [← hfields, Path.joinWith_fields]
    by_cases hnil : rest = []
    · subst hnil
      exact .inl hcs
    · rw [Path.joinWith_cons f hnil] at hcs
      exact .inr ⟨Path.joinWith sep rest, by rw [hcs, List.append_assoc]; rfl⟩
  · rintro (rfl | ⟨rest, rfl⟩)
    · rw [fields_of_not_mem hf]
      rfl
    · rw [List.append_assoc, List.singleton_append, fields_append_separator, fields_of_not_mem hf]
      rfl

/-- **The relative specifiers** are those that start at a directory, without the one that is
`..` and nothing more. -/
theorem isRelative_iff {s : String} : isRelative s = true ↔ StartsAtDirectory s ∧ s ≠ ".." := by
  have hhere := head?_fields_eq_some_iff (show '/' ∉ ['.'] by decide) s.toList
  have hparent := head?_fields_eq_some_iff (show '/' ∉ ['.', '.'] by decide) s.toList
  have hdot : s = "." ↔ s.toList = ['.'] := String.toList_inj.symm
  have hdots : s = ".." ↔ s.toList = ['.', '.'] := String.toList_inj.symm
  rw [StartsAtDirectory, hhere, hparent, isRelative, Bool.or_eq_true, Bool.or_eq_true, beq_iff_eq,
    List.isPrefixOf_iff_prefix, List.isPrefixOf_iff_prefix, ne_eq, hdot, hdots]
  constructor
  · rintro ((h | h) | h)
    · exact ⟨.inl (.inl h), by simp [h]⟩
    · refine ⟨.inl (.inr h), fun hs => ?_⟩
      rw [hs] at h
      exact absurd h (by decide)
    · refine ⟨.inr (.inr h), fun hs => ?_⟩
      rw [hs] at h
      exact absurd h (by decide)
  · rintro ⟨(h | h) | (h | h), hne⟩
    · exact .inl (.inl h)
    · exact .inl (.inr h)
    · exact absurd h hne
    · exact .inr h

end Resolve

namespace GraphBuild

variable {known : List String} {path p x t : String}

theorem isFiled_cons {m : String × List String} {entries : List (String × List String)} :
    IsFiled (m :: entries) p x ↔ (m.1 = p ∧ x ∈ m.2) ∨ IsFiled entries p x := by
  obtain ⟨k, xs⟩ := m
  unfold IsFiled
  constructor
  · rintro ⟨ys, hys, hx⟩
    rcases List.mem_cons.1 hys with h | h
    · obtain ⟨rfl, rfl⟩ := Prod.mk.inj h
      exact .inl ⟨rfl, hx⟩
    · exact .inr ⟨ys, h, hx⟩
  · rintro (⟨rfl, hx⟩ | ⟨ys, hys, hx⟩)
    · exact ⟨xs, List.mem_cons_self .., hx⟩
    · exact ⟨ys, List.mem_cons_of_mem _ hys, hx⟩

theorem not_isFiled_nil : ¬IsFiled [] p x := fun ⟨_, hm, _⟩ => List.not_mem_nil hm

/-- Filing one more text under a path files this text there and leaves every other as it was. -/
theorem isFiled_modify (s : String) (entries : List (String × List String)) :
    IsFiled (Keyed.modify path [] (· ++ [s]) entries) p x ↔ IsFiled entries p x ∨
      (path = p ∧ x = s) := by
  induction entries with
  | nil => simp [Keyed.modify, isFiled_cons, not_isFiled_nil]
  | cons m entries ih =>
    obtain ⟨k, xs⟩ := m
    rw [Keyed.modify]
    split
    · rename_i hk
      obtain rfl := eq_of_beq hk
      rw [isFiled_cons, isFiled_cons, List.mem_append, List.mem_singleton]
      tauto
    · rw [isFiled_cons, isFiled_cons, ih, or_assoc]

/-- What following a specifier can do: file it as a package or as a dead end, find an edge that is
not needed or is there already, or add an edge. -/
theorem Links.follow_cases (known : List String) (path : String) (l : Links) (s : String) :
    (Resolve.isRelative s = false ∧
      l.follow known path s = { l with external := Keyed.modify path [] (· ++ [s]) l.external }) ∨
    (Resolve.isRelative s = true ∧ Resolve.resolve? s path known = none ∧
      l.follow known path s =
        { l with unresolved := Keyed.modify path [] (· ++ [s]) l.unresolved }) ∨
    (∃ t, Resolve.isRelative s = true ∧ Resolve.resolve? s path known = some t ∧
      (t ≠ path → ⟨path, t, false⟩ ∈ l.edges) ∧ l.follow known path s = l) ∨
    (∃ t, Resolve.isRelative s = true ∧ Resolve.resolve? s path known = some t ∧ t ≠ path ∧
      l.follow known path s = { l with edges := l.edges ++ [⟨path, t, false⟩] }) := by
  unfold Links.follow
  cases hrel : Resolve.isRelative s with
  | false => exact .inl ⟨rfl, rfl⟩
  | true =>
    cases hres : Resolve.resolve? s path known with
    | none => exact .inr (.inl ⟨rfl, rfl, rfl⟩)
    | some t =>
      right
      right
      by_cases hold : (t == path || l.edges.contains ⟨path, t, false⟩) = true
      · refine .inl ⟨t, rfl, rfl, fun hne => ?_, if_pos hold⟩
        simpa [hne] using hold
      · refine .inr ⟨t, rfl, rfl, fun hself => hold ?_, if_neg hold⟩
        simp [hself]

/-- What a specifier in a file adds to the packages: itself, unless it is relative. -/
theorem Links.isFiled_external_follow (l : Links) (s : String) :
    IsFiled (l.follow known path s).external p x ↔
      IsFiled l.external p x ∨ (path = p ∧ x = s ∧ Resolve.isRelative s = false) := by
  rcases l.follow_cases known path s with ⟨hrel, h⟩ | ⟨hrel, -, h⟩ | ⟨t, hrel, -, -, h⟩ | ⟨t,
      hrel, -, -, h⟩
  · simp [h, isFiled_modify, hrel]
  · simp [h, hrel]
  · simp [h, hrel]
  · simp [h, hrel]

/-- What a specifier in a file adds to the dead ends: itself, if it is relative
and resolves to nothing. -/
theorem Links.isFiled_unresolved_follow (l : Links) (s : String) :
    IsFiled (l.follow known path s).unresolved p x ↔
      IsFiled l.unresolved p x ∨
        (path = p ∧ x = s ∧ Resolve.isRelative s = true ∧
          Resolve.resolve? s path known = none) := by
  rcases l.follow_cases known path s with ⟨hrel, h⟩ | ⟨hrel, hres, h⟩ | ⟨t, -, hres, -, h⟩ | ⟨t,
      -, hres, -, h⟩
  · simp [h, hrel]
  · simp [h, isFiled_modify, hrel, hres]
  · simp [h, hres]
  · simp [h, hres]

/-- What a specifier in a file adds to the edges: one to the file it resolves to, unless
this is the file itself. -/
theorem Links.mem_edges_follow (l : Links) (s : String) {e : GraphEdge} :
    e ∈ (l.follow known path s).edges ↔
      e ∈ l.edges ∨
        (∃ t, e = ⟨path, t, false⟩ ∧ t ≠ path ∧ Resolve.isRelative s = true ∧
          Resolve.resolve? s path known = some t) := by
  rcases l.follow_cases known path s with
    ⟨hrel, h⟩ | ⟨-, hres, h⟩ | ⟨t, hrel, hres, hold, h⟩ | ⟨t, hrel, hres, hne, h⟩
  · simp [h, hrel]
  · simp [h, hres]
  · rw [h, iff_self_or]
    rintro ⟨u, rfl, hne, -, hu⟩
    obtain rfl := Option.some.inj (hres.symm.trans hu)
    exact hold hne
  · rw [h, List.mem_append, List.mem_singleton]
    refine or_congr_right ⟨fun he => ⟨t, he, hne, hrel, hres⟩, ?_⟩
    rintro ⟨u, rfl, -, -, hu⟩
    rw [Option.some.inj (hres.symm.trans hu)]

/-- What holds after a fold held before, or one of its steps brought it about. -/
theorem foldl_iff {α β : Type} {P : β → Prop} {Q : α → Prop} {step : β → α → β}
    (h : ∀ b a, P (step b a) ↔ P b ∨ Q a) (b : β) (xs : List α) :
    P (xs.foldl step b) ↔ P b ∨ ∃ a ∈ xs, Q a := by
  induction xs generalizing b with
  | nil => simp
  | cons a xs ih => rw [List.foldl_cons, ih, h, or_assoc, List.exists_mem_cons_iff]

/-- **What the links of some files hold**, one step of following an import at a time: whatever a
specifier adds, some specifier of some file has added. -/
theorem foldl_followFile_iff {c : Classification} {scan : Scanner} {P : Links → Prop}
    {Q : String → String → Prop} (h : ∀ path l s, P (l.follow known path s) ↔ P l ∨ Q path s)
    (l : Links) (files : List SourceFile) :
    P (files.foldl (fun l f => l.followFile known f.path (specifiersIn c scan f)) l) ↔
      P l ∨ ∃ f ∈ files, ∃ s ∈ specifiersIn c scan f, Q f.path s :=
  foldl_iff (fun l f => foldl_iff (h f.path) l (specifiersIn c scan f)) l files

/-- The edges of links that have one are the edges of their graph. -/
theorem Links.mem_edges_graph (l : Limits) (nodes : List GraphNode) {links : Links} {e : GraphEdge}
    (h : e ∈ links.edges) : e ∈ (links.graph l nodes).edges := by
  have hsome : links.edges.isEmpty = false := List.isEmpty_eq_false_iff_exists_mem.2 ⟨e, h⟩
  simpa [Links.graph, hsome] using h

/-- The texts that the links of some files hold as packages are the specifiers
that are not relative. -/
theorem isFiled_external_followedLinks {c : Classification} {scan : Scanner}
    {files : List SourceFile} :
    IsFiled (followedLinks c scan files).external p x ↔
      ∃ f ∈ analyzable c files, ∃ s ∈ specifiersIn c scan f,
        f.path = p ∧ x = s ∧ Resolve.isRelative s = false := by
  rw [followedLinks, foldl_followFile_iff (P := fun l => IsFiled l.external p x) fun _ l s =>
    l.isFiled_external_follow s]
  exact or_iff_right not_isFiled_nil

/-- The texts that the links of some files hold as dead ends are the relative specifiers
that resolve to nothing. -/
theorem isFiled_unresolved_followedLinks {c : Classification} {scan : Scanner}
    {files : List SourceFile} :
    IsFiled (followedLinks c scan files).unresolved p x ↔
      ∃ f ∈ analyzable c files, ∃ s ∈ specifiersIn c scan f,
        f.path = p ∧ x = s ∧ Resolve.isRelative s = true ∧
          Resolve.resolve? s f.path (knownPaths c files) = none := by
  rw [followedLinks, foldl_followFile_iff (P := fun l => IsFiled l.unresolved p x) fun _ l s =>
    l.isFiled_unresolved_follow s]
  exact or_iff_right not_isFiled_nil

/-- The edges of the links of some files lead from a file to another that one of its
relative specifiers names. -/
theorem mem_edges_followedLinks {c : Classification} {scan : Scanner} {files : List SourceFile}
    {e : GraphEdge} :
    e ∈ (followedLinks c scan files).edges ↔
      ∃ f ∈ analyzable c files, ∃ s ∈ specifiersIn c scan f, ∃ t,
        e = ⟨f.path, t, false⟩ ∧ t ≠ f.path ∧
        Resolve.isRelative s = true ∧ Resolve.resolve? s f.path (knownPaths c files) = some t := by
  rw [followedLinks,
    foldl_followFile_iff (P := fun l => e ∈ l.edges) fun _ l s => l.mem_edges_follow s]
  exact or_iff_right List.not_mem_nil

/-- **Where relative imports are filed.** In a graph that is built of whatever files, the only text
filed as a package that starts at a directory is `..` alone. In a graph built from the imports of
its files, and not from a sample, every other specifier that starts at a directory is a dead end or
leads to a file, by an edge unless it is the file itself; a `..` alone is a package. -/
theorem buildWith_files_relative {c : Classification} {scan : Scanner} {l : Limits}
    {watch : Option (Deadline × Clock)} {files : List SourceFile} {g : DependencyGraph}
    (h : (buildWith c scan l watch files).outcome.value = .ok g) :
    (∀ path s, IsFiled g.externalImports path s → Resolve.StartsAtDirectory s → s = "..") ∧
      (((analyzable c files).length : Int) ≤ l.largeRepository →
        ∀ f ∈ files, c.isParseable f.path → ∃ ss, scan f.path f.content = .ok ss ∧
          ∀ s ∈ ss, Resolve.StartsAtDirectory s →
            (s = ".." ∧ IsFiled g.externalImports f.path s) ∨
            (s ≠ ".." ∧ Resolve.resolve? s f.path (knownPaths c files) = none ∧
              IsFiled g.unresolved f.path s) ∨
            (s ≠ ".." ∧ ∃ t ∈ knownPaths c files,
              Resolve.resolve? s f.path (knownPaths c files) = some t ∧
              (t = f.path ∨ ⟨f.path, t, false⟩ ∈ g.edges))) := by
  rcases buildWith_eq_ok_of_followed h with ⟨hlarge, reason, rfl⟩ | ⟨-, rfl, hscanned⟩
  · exact ⟨fun path s hs => absurd hs not_isFiled_nil,
      fun hsize => absurd hlarge (Int.not_lt.2 hsize)⟩
  · refine ⟨fun path s hs hstart => ?_, fun _ f hf hp => ?_⟩
    · obtain ⟨-, -, s, -, -, rfl, hrel⟩ := isFiled_external_followedLinks.1 hs
      by_contra hne
      exact Bool.false_ne_true (hrel.symm.trans (Resolve.isRelative_iff.2 ⟨hstart, hne⟩))
    · have hchosen : f ∈ analyzable c files := mem_analyzable.2 ⟨hf, isAnalyzable_of_isParseable hp⟩
      have hss := hscanned f hchosen
      rw [specifiersOf, if_pos hp] at hss
      refine ⟨_, hss, fun s hs hstart => ?_⟩
      by_cases hdots : s = ".."
      · have hrel : Resolve.isRelative s = false := by
          rw [hdots]
          decide
        exact .inl ⟨hdots, isFiled_external_followedLinks.2 ⟨f, hchosen, s, hs, rfl, rfl, hrel⟩⟩
      · have hrel := Resolve.isRelative_iff.2 ⟨hstart, hdots⟩
        cases hres : Resolve.resolve? s f.path (knownPaths c files) with
        | none =>
          exact .inr (.inl ⟨hdots, rfl,
            isFiled_unresolved_followedLinks.2 ⟨f, hchosen, s, hs, rfl, rfl, hrel, hres⟩⟩)
        | some t =>
          refine .inr (.inr ⟨hdots, t, Resolve.resolve?_mem hres, rfl, ?_⟩)
          by_cases hself : t = f.path
          · exact .inl hself
          · exact .inr (Links.mem_edges_graph l _
              (mem_edges_followedLinks.2 ⟨f, hchosen, s, hs, t, rfl, hself, hrel, hres⟩))

/-- Two files of one path, of which each names its directory, the one above it, a file and a path
that leads nowhere, have all of this filed. -/
theorem buildWith_files_relative_of_shared_path :
    let scan : Scanner := fun _ _ => .ok [".", "..", "./b", "../gone", "react"]
    let files : List SourceFile :=
      [{ path := "src/a.ts" }, { path := "src/a.ts" }, { path := "src/b.ts" }]
    ((analyzable .standard files).length : Int) ≤ ({} : Limits).largeRepository ∧
      ∃ g, (buildWith .standard scan {} none files).outcome.value = .ok g ∧
        (∀ path s, IsFiled g.externalImports path s → Resolve.StartsAtDirectory s → s = "..") ∧
        ∀ f ∈ files, Classification.standard.isParseable f.path →
          ∃ ss, scan f.path f.content = .ok ss ∧ ∀ s ∈ ss, Resolve.StartsAtDirectory s →
            (s = ".." ∧ IsFiled g.externalImports f.path s) ∨
            (s ≠ ".." ∧ Resolve.resolve? s f.path (knownPaths .standard files) = none ∧
              IsFiled g.unresolved f.path s) ∨
            (s ≠ ".." ∧ ∃ t ∈ knownPaths .standard files,
              Resolve.resolve? s f.path (knownPaths .standard files) = some t ∧
              (t = f.path ∨ ⟨f.path, t, false⟩ ∈ g.edges)) := by
  intro scan files
  have hsize : ((analyzable .standard files).length : Int) ≤ ({} : Limits).largeRepository := by
    decide +kernel
  obtain ⟨g, hg⟩ : ∃ g, (buildWith .standard scan {} none files).outcome.value = .ok g :=
    buildWith_without_deadline {} fun f _ => ⟨_, rfl⟩
  obtain ⟨hexternal, hall⟩ := buildWith_files_relative hg
  exact ⟨hsize, g, hg, hexternal, hall hsize⟩

/-- The import of `..` in a cleanly parsed file starts at a directory and would lead to the index
file there, but is filed as a package, and all edges are inferred. -/
theorem parent_filed_as_package :
    let tree : SyntaxTree := .node ⟨"program", 0, 19, none, true, false, false⟩
      [.node ⟨"import_statement", 0, 18, none, true, false, false⟩
        [.node ⟨"string", 14, 18, some "source", true, false, false⟩ []]]
    let files : List SourceFile :=
      [{ path := "src/lib/a.js", content := some "import x from '..'\n" },
        { path := "src/index.js" }]
    Resolve.StartsAtDirectory ".." ∧
      Resolve.resolve? ".." "src/lib/a.js" (knownPaths .standard files) = some "src/index.js" ∧
      ∃ g, (build .standard { tree := fun _ _ => .ok tree } {} none files).outcome.value = .ok g ∧
        IsFiled g.externalImports "src/lib/a.js" ".." ∧ ¬IsFiled g.unresolved "src/lib/a.js" ".." ∧
        ∀ e ∈ g.edges, e.inferred = true := by
  intro tree files
  have hbuilt : ((build .standard { tree := fun _ _ => .ok tree }
      {} none files).outcome.value.toOption.map fun g =>
      (g.externalImports, g.unresolved, g.edges)) =
        some ([("src/lib/a.js", [".."])], [], [⟨"src/lib/a.js", "src/index.js", true⟩]) := by
          decide +kernel
  refine ⟨by decide, by decide +kernel, ?_⟩
  cases hg : (build .standard { tree := fun _ _ => .ok tree } {} none files).outcome.value with
  | error e =>
    rw [hg] at hbuilt
    cases hbuilt
  | ok g =>
    rw [hg] at hbuilt
    obtain ⟨hexternal, hrest⟩ := Prod.mk.inj (Option.some.inj hbuilt)
    obtain ⟨hunresolved, hedges⟩ := Prod.mk.inj hrest
    refine ⟨g, rfl, ?_, ?_, fun e he => ?_⟩
    · rw [hexternal]
      exact ⟨_, List.mem_cons_self .., List.mem_cons_self ..⟩
    · rw [hunresolved]
      exact not_isFiled_nil
    · rw [hedges, List.mem_singleton] at he
      rw [he]

end GraphBuild
end CodeSurvey
