/-
# Repeated blocks

Every block that counts stands at certain spots, each a file and a number of lines before it. What
is looked at one after another is all counting blocks with their spots, in the order of the spots
(`Debt.mem_standing`, `Debt.pairwise_standing`). The lines of a block hold no line end, so its text
tells it from any other block (`Debt.blockText_inj`), and grouping by text gives each block all of
its spots in order (`Debt.placesByBlock_eq`). So the duplications are the blocks with several spots,
by their first spots (`Debt.duplications_exact`).
-/

import CodeSurvey.Finding.Debt
import CodeSurvey.Proofs.Keyed
import CodeSurvey.Proofs.Text
import Mathlib.Data.List.FinRange

namespace CodeSurvey

/-- What is found on a line is one of the patterns looked for. -/
theorem pattern_mem_of_mem_scanLines {α : Type} {view : α → LinePattern} {ps : List α}
    {files : List SourceFile} {f : LineFind α} (h : f ∈ scanLines view ps files) :
    f.pattern ∈ ps := by
  obtain ⟨file, -, h⟩ := List.mem_flatMap.1 h
  dsimp only at h
  split at h
  · cases h
  · obtain ⟨⟨n, l⟩, -, h⟩ := List.mem_flatMap.1 h
    obtain ⟨p, hp, rfl⟩ := List.mem_map.1 h
    exact (List.mem_filter.1 (List.mem_filter.1 hp).1).1

namespace Debt

/-- Whether some lines are as many as a block has, none of them empty, and long
enough together to count. -/
structure Counts (o : Options) (b : Block) : Prop where
  size : (b.length : Int) = o.blockSize
  written : ∀ l ∈ b, l ≠ []
  long : o.minBlockChars < ((blockText b).length : Int)

/-- A spot in some files: one of the files by its index, and a number of lines before the spot. -/
structure Spot (files : List SourceFile) where
  file : Fin files.length
  line : Nat

namespace Spot

variable {files : List SourceFile}

/-- Whether a spot is in an earlier file than another one, or before it in the same file. -/
def Before (s t : Spot files) : Prop := s.file < t.file ∨ s.file = t.file ∧ s.line < t.line

theorem Before.ne {s t : Spot files} (h : s.Before t) : s ≠ t := by
  rintro rfl
  rcases h with h | ⟨-, h⟩
  · exact Nat.lt_irrefl _ h
  · exact Nat.lt_irrefl _ h

/-- The path of the file of a spot, and the number of the line that starts there. -/
def place (s : Spot files) : String × Nat := ((files.get s.file).path, s.line + 1)

/-- Whether a block stands at a spot. -/
def Holds (s : Spot files) (b : Block) : Prop :=
  ∃ before after, trimmedLines (files.get s.file) = before ++ b ++ after ∧ before.length = s.line

end Spot

/-- A block that stands at a first spot and at others. -/
structure Repetition (files : List SourceFile) where
  block : Block
  first : Spot files
  others : List (Spot files)

/-- What is reported of a block that stands at several spots: the first one, how many there
are, and the next five. -/
def Repetition.item {files : List SourceFile} (r : Repetition files) : DebtItem where
  kind := "duplication"
  severity := "medium"
  path := r.first.place.1
  line := some r.first.place.2
  description := "Duplicated code block found in " ++ toString (r.first :: r.others).length ++
    " locations (also " ++
    commaJoined ((r.others.take 5).map fun s => placeText s.place) ++ ")"

variable {o : Options}

theorem countsAsBlock_iff {b : Block} (h : (b.length : Int) = o.blockSize) :
    countsAsBlock o b = true ↔ Counts o b := by
  simp only [countsAsBlock, Bool.and_eq_true, List.all_eq_true, Bool.not_eq_true',
    List.isEmpty_eq_false_iff, decide_eq_true_eq]
  exact ⟨fun hb => ⟨h, hb.1, hb.2⟩, fun hb => ⟨hb.written, hb.long⟩⟩

/-- The blocks of a file that count, whether or not it has lines. -/
theorem blocksOf_eq {m : Nat} (hm : o.blockSize = m) (hpos : 0 < m) (f : SourceFile) :
    blocksOf o f = (List.range ((trimmedLines f).length + 1 - m)).filterMap fun (start : Nat) =>
      let block := slice start ((start : Int) + m) (trimmedLines f)
      if countsAsBlock o block then some (block, start) else none := by
  have hcount : (((trimmedLines f).length : Int) - m + 1).toNat = (trimmedLines f).length +
      1 - m := by omega
  rw [blocksOf]
  simp only [hm, hcount]
  split_ifs with hnone
  · rw [List.isEmpty_iff.1 hnone, List.length_nil, Nat.sub_eq_zero_of_le hpos]
    rfl
  · rfl

/-- The blocks of a file are the counting parts of its lines. -/
theorem mem_blocksOf (h : 1 ≤ o.blockSize) {f : SourceFile} {b : Block} {n : Nat} :
    (b, n) ∈ blocksOf o f ↔
      Counts o b ∧ ∃ before after, trimmedLines f = before ++ b ++ after ∧ before.length = n := by
  obtain ⟨m, hm⟩ := Int.eq_ofNat_of_zero_le (show 0 ≤ o.blockSize by omega)
  rw [blocksOf_eq hm (by omega), List.mem_filterMap]
  simp only [List.mem_range, Option.ite_none_right_eq_some, Option.some.injEq, Prod.mk.injEq]
  constructor
  · rintro ⟨n, hn, hcounts, rfl, rfl⟩
    obtain ⟨hlength, hpart⟩ := slice_spec (show n + m ≤ (trimmedLines f).length by omega)
    exact ⟨(countsAsBlock_iff (by rw [hlength, hm])).1 hcounts, hpart⟩
  · rintro ⟨hcounts, before, after, hlines, rfl⟩
    have hlength : b.length = m := Int.ofNat_inj.1 (hcounts.size.trans hm)
    have hslice : slice before.length ((before.length : Int) + m) (trimmedLines f) = b := by
      rw [hlines, ← hlength, slice_append]
    refine ⟨before.length, ?_, ?_, hslice, rfl⟩
    · rw [hlines, List.length_append, List.length_append]
      omega
    · rw [hslice]
      exact (countsAsBlock_iff hcounts.size).2 hcounts

/-- The blocks of a file come in the order of its lines. -/
theorem pairwise_blocksOf (h : 1 ≤ o.blockSize) (f : SourceFile) :
    (blocksOf o f).Pairwise fun x y => x.2 < y.2 := by
  obtain ⟨m, hm⟩ := Int.eq_ofNat_of_zero_le (show 0 ≤ o.blockSize by omega)
  rw [blocksOf_eq hm (by omega)]
  refine List.pairwise_lt_range.filterMap _ fun n n' hlt x hx y hy => ?_
  simp only [Option.ite_none_right_eq_some, Option.some.injEq] at hx hy
  obtain ⟨-, rfl⟩ := hx
  obtain ⟨-, rfl⟩ := hy
  exact hlt

/-- The texts of two blocks are different if the blocks are and no line holds a line end. -/
theorem blockText_inj {b c : Block} (hb : b ≠ []) (hc : c ≠ []) (hbl : ∀ l ∈ b, '\n' ∉ l)
    (hcl : ∀ l ∈ c, '\n' ∉ l) (h : blockText b = blockText c) : b = c := by
  rw [← Text.fields_joinWith hb hbl, ← Text.fields_joinWith hc hcl]
  exact congrArg (Text.fields '\n') h

variable (o) (files : List SourceFile)

/-- The blocks that count in all files, each with its spot, in the order in
which they are looked at. -/
def standing : List (Block × Spot files) :=
  (List.finRange files.length).flatMap fun i =>
    (blocksOf o (files.get i)).map fun (b, n) => (b, ⟨i, n⟩)

/-- The spots of a block among the blocks that count. -/
def spotsOf (b : Block) : List (Spot files) :=
  ((standing o files).filter fun x => x.1 == b).map Prod.snd

/-- The distinct blocks that count, in order of first occurrence. -/
def distinctBlocks : List Block := ((standing o files).map Prod.fst).eraseDups

variable {o files}

theorem mem_standing (h : 1 ≤ o.blockSize) {b : Block} {s : Spot files} :
    (b, s) ∈ standing o files ↔ Counts o b ∧ s.Holds b := by
  simp only [standing, List.mem_flatMap, List.mem_finRange, true_and, List.mem_map, Prod.exists]
  constructor
  · rintro ⟨i, b, n, hmem, heq⟩
    cases heq
    exact (mem_blocksOf h).1 hmem
  · intro hs
    exact ⟨s.file, b, s.line, (mem_blocksOf h).2 hs, rfl⟩

theorem mem_spotsOf (h : 1 ≤ o.blockSize) {b : Block} {s : Spot files} :
    s ∈ spotsOf o files b ↔ Counts o b ∧ s.Holds b := by
  rw [← mem_standing h, spotsOf, List.mem_map]
  constructor
  · rintro ⟨⟨c, t⟩, hmem, rfl⟩
    obtain ⟨hmem, hc⟩ := List.mem_filter.1 hmem
    rwa [← eq_of_beq hc]
  · intro hmem
    exact ⟨(b, s), List.mem_filter.2 ⟨hmem, beq_self_eq_true b⟩, rfl⟩

/-- What is looked at comes in the order of the spots. -/
theorem pairwise_standing (h : 1 ≤ o.blockSize) :
    (standing o files).Pairwise fun x y => x.2.Before y.2 := by
  refine List.pairwise_flatMap.2 ⟨fun i _ => ?_, ?_⟩
  · exact (pairwise_blocksOf h _).map _ fun x y hlt => .inr ⟨rfl, hlt⟩
  · refine (List.pairwise_lt_finRange _).imp fun {i j} hij x hx y hy => ?_
    obtain ⟨-, -, rfl⟩ := List.mem_map.1 hx
    obtain ⟨-, -, rfl⟩ := List.mem_map.1 hy
    exact .inl hij

theorem pairwise_spotsOf (h : 1 ≤ o.blockSize) (b : Block) :
    (spotsOf o files b).Pairwise Spot.Before :=
  List.pairwise_map.2 ((pairwise_standing h).filter _)

/-- The blocks that count differ in their texts. -/
theorem blockText_inj_of_standing (h : 1 ≤ o.blockSize) {b c : Block}
    (hb : b ∈ (standing o files).map Prod.fst) (hc : c ∈ (standing o files).map Prod.fst)
    (htext : blockText b = blockText c) : b = c := by
  have hlines : ∀ {d : Block}, d ∈ (standing o files).map Prod.fst → d ≠ [] ∧
      ∀ l ∈ d, '\n' ∉ l := by
    intro d hd
    obtain ⟨⟨d, s⟩, hmem, rfl⟩ := List.mem_map.1 hd
    obtain ⟨hcounts, before, after, hlines, -⟩ := (mem_standing h).1 hmem
    refine ⟨?_, fun l hl hend => ?_⟩
    · rintro rfl
      have := hcounts.size
      simp only [List.length_nil] at this
      omega
    · have htrimmed : l ∈ trimmedLines (files.get s.file) := by
        rw [hlines]
        exact List.mem_append_left _ (List.mem_append_right _ hl)
      obtain ⟨line, hline, rfl⟩ := List.mem_map.1 htrimmed
      exact absurd (Text.isLineEnd_of_mem_lines hline (Text.mem_of_mem_trim hend)) (by decide)
  exact blockText_inj (hlines hb).1 (hlines hc).1 (hlines hb).2 (hlines hc).2 htext

/-- Grouping by text gives each block that counts, in order of first occurrence, the
places of all of its spots. -/
theorem placesByBlock_eq (h : 1 ≤ o.blockSize) :
    placesByBlock o files =
      (distinctBlocks o files).map fun b => (blockText b, (spotsOf o files b).map Spot.place) := by
  have hpass : placesByBlock o files = (standing o files).foldl
      (fun groups x => Keyed.modify (blockText x.1) [] (· ++ [x.2.place]) groups) [] := by
    rw [placesByBlock, standing, List.foldl_flatMap]
    conv_lhs => rw [← List.map_get_finRange files]
    simp only [List.foldl_map]
    rfl
  have hplaces : ∀ xs : List (Block × Spot files),
      xs.foldl (fun group x => group ++ [x.2.place]) [] =
        (xs.map Prod.snd).map Spot.place := fun xs => by
    rw [List.map_map, List.map_eq_flatMap, List.flatMap_eq_foldl]
    rfl
  have htexts : (standing o files).map (fun x => blockText x.1) =
      ((standing o files).map Prod.fst).map blockText := by
    rw [List.map_map]
    rfl
  have hgroups := Keyed.foldl_modify (fun x : Block × Spot files => blockText x.1) []
    (fun group x => group ++ [x.2.place]) (standing o files)
  rw [hpass.trans hgroups, htexts,
    eraseDups_map_of_injOn fun b hb c hc => blockText_inj_of_standing h hb hc, List.map_map]
  refine List.map_congr_left fun b hb => ?_
  have hsame : ((standing o files).filter fun x => blockText x.1 == blockText b) =
      (standing o files).filter fun x => x.1 == b := by
    refine List.filter_congr fun x hx => ?_
    rw [Bool.eq_iff_iff, beq_iff_eq, beq_iff_eq]
    exact ⟨blockText_inj_of_standing h (List.mem_map_of_mem hx) (List.mem_eraseDups.1 hb),
      congrArg blockText⟩
  rw [Function.comp_apply, hplaces, hsame]
  rfl

variable (o files)

/-- A block with its spots, if it has several. -/
def repetition? (b : Block) : Option (Repetition files) :=
  match spotsOf o files b with
  | first :: second :: rest => some ⟨b, first, second :: rest⟩
  | _ => none

/-- The blocks that count and have several spots, in order of first occurrence. -/
def repetitions : List (Repetition files) :=
  (distinctBlocks o files).filterMap (repetition? o files)

variable {o files}

theorem repetition?_eq_some {b : Block} {r : Repetition files} :
    repetition? o files b = some r ↔ r.block = b ∧ spotsOf o files b = r.first :: r.others ∧
      r.others ≠ [] := by
  obtain ⟨c, first, others⟩ := r
  rw [repetition?]
  split
  · rename_i first' second rest hspots
    simp only [hspots, Option.some.injEq, Repetition.mk.injEq, List.cons.injEq]
    constructor
    · rintro ⟨rfl, rfl, rfl⟩
      exact ⟨rfl, ⟨rfl, rfl⟩, List.cons_ne_nil second rest⟩
    · rintro ⟨rfl, ⟨rfl, rfl⟩, -⟩
      exact ⟨rfl, rfl, rfl⟩
  · rename_i hfew
    refine ⟨fun hnone => absurd hnone (Option.some_ne_none _).symm, ?_⟩
    rintro ⟨-, hspots, hothers⟩
    obtain ⟨second, rest, rfl⟩ := List.exists_cons_of_ne_nil hothers
    exact absurd hspots (hfew first second rest)

/-- The item of several places is the one of the block that has them. -/
theorem duplicationOf?_map_place (b : Block) :
    duplicationOf? ((spotsOf o files b).map Spot.place) =
      (repetition? o files b).map Repetition.item := by
  rw [repetition?]
  rcases spotsOf o files b with _ | ⟨first, _ | ⟨second, rest⟩⟩
  · rfl
  · rfl
  · simp only [List.map_cons, duplicationOf?, Option.map_some, Repetition.item, List.length_cons,
      List.length_map, ← List.map_take, List.map_map, List.take_succ_cons]
    rfl

theorem duplications_eq (h : 1 ≤ o.blockSize) :
    duplications o files = (repetitions o files).map Repetition.item := by
  rw [duplications, placesByBlock_eq h, List.filterMap_map, repetitions, List.map_filterMap]
  exact List.filterMap_congr fun b _ => duplicationOf?_map_place b

/-- No other debt is a duplication. -/
theorem filter_allItems (quality : List QualityMetric) :
    ((allItems o files quality).filter fun d => d.kind == "duplication") =
      duplications o files := by
  have hsmells : (((scanLines id patterns files).map smellOf).filter fun d =>
      d.kind == "duplication") = [] := by
    refine List.filter_eq_nil_iff.2 fun d hd => ?_
    obtain ⟨f, hf, rfl⟩ := List.mem_map.1 hd
    have hkinds : ∀ p ∈ patterns, p.kind = "smell" := by
      simp [patterns]
    rw [smellOf, hkinds f.pattern (pattern_mem_of_mem_scanLines hf)]
    exact Bool.false_ne_true
  have hcomplex : ((complexFiles o.complexityThreshold quality).filter fun d =>
      d.kind == "duplication") = [] := by
    refine List.filter_eq_nil_iff.2 fun d hd => ?_
    obtain ⟨m, -, rfl⟩ := List.mem_map.1 hd
    exact Bool.false_ne_true
  have hduplications : ∀ d ∈ duplications o files, (d.kind == "duplication") = true := by
    intro d hd
    obtain ⟨⟨text, places⟩, -, hd⟩ := List.mem_filterMap.1 hd
    rcases places with _ | ⟨first, _ | ⟨second, rest⟩⟩
    · cases hd
    · cases hd
    · cases hd
      rfl
  rw [allItems, List.filter_append, List.filter_append, hsmells, hcomplex,
    List.filter_eq_self.2 hduplications]
  rfl

/-- A block is first found at the first one of its spots. -/
theorem find?_standing {b : Block} {s : Spot files} {others : List (Spot files)}
    (h : spotsOf o files b = s :: others) :
    ((standing o files).find? fun x => x.1 == b) = some (b, s) := by
  obtain ⟨⟨c, t⟩, rest, hstanding, ht, -⟩ := List.map_eq_cons_iff.1 h
  have hc : (c, t) ∈ (standing o files).filter fun x => x.1 == b :=
    hstanding ▸ List.mem_cons_self ..
  rw [← List.head?_filter, hstanding, List.head?_cons, ← ht, ← eq_of_beq (List.mem_filter.1 hc).2]

theorem mem_repetitions {r : Repetition files} :
    r ∈ repetitions o files ↔ spotsOf o files r.block = r.first :: r.others ∧ r.others ≠ [] := by
  rw [repetitions, List.mem_filterMap]
  constructor
  · rintro ⟨b, -, hr⟩
    obtain ⟨rfl, hspots⟩ := repetition?_eq_some.1 hr
    exact hspots
  · intro hspots
    have hmem : (r.block, r.first) ∈ standing o files :=
      List.mem_of_find?_eq_some (find?_standing hspots.1)
    exact ⟨r.block, List.mem_eraseDups.2 (List.mem_map.2 ⟨_, hmem, rfl⟩),
      repetition?_eq_some.2 ⟨rfl, hspots⟩⟩

theorem nodup_map_block_repetitions : ((repetitions o files).map Repetition.block).Nodup := by
  refine List.pairwise_map.2
    (List.Pairwise.filterMap _ (fun b c hne r hr q hq => ?_) (nodup_eraseDups _))
  rwa [(repetition?_eq_some.1 hr).1, (repetition?_eq_some.1 hq).1]

/-- The blocks with several spots are found in the order of their first ones. -/
theorem pairwise_repetitions (h : 1 ≤ o.blockSize) :
    (repetitions o files).Pairwise fun r q => r.first.Before q.first := by
  refine (pairwise_eraseDups_map Prod.fst (pairwise_standing h)).filterMap
    _ fun b c hfirst r hr q hq => ?_
  exact hfirst _ _ (find?_standing (repetition?_eq_some.1 hr).2.1)
    (find?_standing (repetition?_eq_some.1 hq).2.1)

/-- The blocks that are found are those that count and stand at two spots. -/
theorem mem_map_block_repetitions (h : 1 ≤ o.blockSize) {b : Block} :
    b ∈ (repetitions o files).map Repetition.block ↔
      Counts o b ∧ ∃ s t : Spot files, s ≠ t ∧ s.Holds b ∧ t.Holds b := by
  constructor
  · intro hb
    obtain ⟨r, hr, rfl⟩ := List.mem_map.1 hb
    obtain ⟨hspots, hothers⟩ := mem_repetitions.1 hr
    obtain ⟨second, rest, hrest⟩ := List.exists_cons_of_ne_nil hothers
    have hsecond : second ∈ r.others := hrest ▸ List.mem_cons_self ..
    have horder : (r.first :: r.others).Pairwise Spot.Before := hspots ▸ pairwise_spotsOf h r.block
    have hholds : ∀ s ∈ r.first :: r.others, Counts o r.block ∧ s.Holds r.block :=
      fun s hs => (mem_spotsOf h).1 (hspots ▸ hs)
    exact ⟨(hholds _ (List.mem_cons_self ..)).1, r.first, second,
      ((List.pairwise_cons.1 horder).1 second hsecond).ne, (hholds _ (List.mem_cons_self ..)).2,
      (hholds _ (List.mem_cons_of_mem _ hsecond)).2⟩
  · rintro ⟨hcounts, s, t, hne, hs, ht⟩
    have hsmem : s ∈ spotsOf o files b := (mem_spotsOf h).2 ⟨hcounts, hs⟩
    have htmem : t ∈ spotsOf o files b := (mem_spotsOf h).2 ⟨hcounts, ht⟩
    rcases hspots : spotsOf o files b with _ | ⟨first, _ | ⟨second, rest⟩⟩
    · rw [hspots] at hsmem
      exact absurd hsmem List.not_mem_nil
    · rw [hspots, List.mem_singleton] at hsmem htmem
      exact absurd (hsmem.trans htmem.symm) hne
    · exact List.mem_map.2 ⟨⟨b, first, second :: rest⟩,
        mem_repetitions.2 ⟨hspots, List.cons_ne_nil second rest⟩, rfl⟩

/-- **Duplicate detection is exact.** The duplications among the debt of some files, whatever else
is reported, are one item for each of certain blocks, which are different from each other: those
that are as many trimmed lines as asked, none of them empty, long enough when joined, and stand at
two spots at least. The spots of a block are the first one, for which it is reported, and the
others, of which the next five are named, in the order of files and lines; they are all spots where
the block stands. The blocks come in the order of their first spots. -/
theorem duplications_exact (h : 1 ≤ o.blockSize) (files : List SourceFile)
    (quality : List QualityMetric) :
    ∃ found : List (Repetition files),
      ((allItems o files quality).filter fun d => d.kind == "duplication") =
        found.map Repetition.item ∧
      (found.map Repetition.block).Nodup ∧
      (∀ b, b ∈ found.map Repetition.block ↔
        Counts o b ∧ ∃ s t : Spot files, s ≠ t ∧ s.Holds b ∧ t.Holds b) ∧
      (∀ r ∈ found, (r.first :: r.others).Pairwise Spot.Before ∧
        ∀ s, s ∈ r.first :: r.others ↔ s.Holds r.block) ∧
      found.Pairwise fun r q => r.first.Before q.first := by
  refine ⟨repetitions o files, ?_, nodup_map_block_repetitions,
    fun b => mem_map_block_repetitions h, fun r hr => ?_, pairwise_repetitions h⟩
  · rw [filter_allItems, duplications_eq h]
  · have hspots := (mem_repetitions.1 hr).1
    have hcounts : Counts o r.block := ((mem_map_block_repetitions h).1 (List.mem_map_of_mem hr)).1
    rw [← hspots]
    exact ⟨pairwise_spotsOf h r.block, fun s => (mem_spotsOf h).trans (and_iff_right hcounts)⟩

/-- Two lines that overlap their own repetition, and stand in a second file as well. -/
theorem duplications_exact_of_overlapping :
    let o : Options := { blockSize := 2, minBlockChars := 2 }
    let files : List SourceFile :=
      [{ path := "a.py", content := some "x\n x \nx" },
        { path := "b.py", content := some "x\nx\ny" }]
    1 ≤ o.blockSize ∧ ∃ r : Repetition files,
      r.block = [['x'], ['x']] ∧
      ((allItems o files []).filter fun d => d.kind == "duplication") = [r.item] ∧
      r.item =
        { kind := "duplication", severity := "medium", path := "a.py", line := some 1
          description := "Duplicated code block found in 3 locations (also a.py:2, b.py:1)" } := by
  intro o files
  have hsize : 1 ≤ o.blockSize := by decide
  obtain ⟨found, hitems, -, hblocks, -⟩ := duplications_exact hsize files []
  have hreported : ((allItems o files []).filter fun d => d.kind == "duplication") =
      [{ kind := "duplication", severity := "medium", path := "a.py", line := some 1
         description := "Duplicated code block found in 3 locations (also a.py:2, b.py:1)" }] := by
    decide +kernel
  obtain ⟨r, rfl, hitem⟩ := List.map_eq_singleton_iff.1 (hitems.symm.trans hreported)
  have hcounts : Counts o [['x'], ['x']] := ⟨rfl, by decide, by decide⟩
  have hfirst : (⟨0, 0⟩ : Spot files).Holds [['x'], ['x']] := ⟨[], [['x']], by decide +kernel, rfl⟩
  have hsecond : (⟨0, 1⟩ : Spot files).Holds [['x'], ['x']] := ⟨[['x']], [], by decide +kernel, rfl⟩
  have hblock := (hblocks _).2 ⟨hcounts, _, _, by simp, hfirst, hsecond⟩
  exact ⟨hsize, r, (List.mem_singleton.1 hblock).symm, hitems, hitem⟩

end Debt
end CodeSurvey
