/-
# Imports in a text of lines

What looks like an import is found in several passes, each of which looks for one pattern
(`FromText.Finder`). If each pass finds its matches line by line, and all matches on a line start at
one place, then the imports stand line by line in the order of the lines, each with the number of
its line (`FromText.inOrder_joinWith`). A line feed may end the last line
(`FromText.inOrder_stacked`).
-/

import CodeSurvey.Import.FromText
import CodeSurvey.Proofs.Pattern.Search
import CodeSurvey.Proofs.Sorting

namespace CodeSurvey
namespace FromText

open Pattern

/-- A pass over a text: a pattern, the specifiers that what it captured names, and
the way of importing. -/
structure Finder where
  pattern : Pattern
  named : List (Nat × List Char) → List (List Char)
  kind : ImportKind

namespace Finder

/-- The imports that a pass finds, each with the place where its match starts. -/
def references (x : Finder) (cs : List Char) : List (Nat × ImportReference) :=
  (x.pattern.hits (.start cs)).flatMap fun h =>
    (x.named h.captured).map fun s => (h.offset, ⟨String.ofList s, x.kind, lineOf cs h.offset⟩)

/-- The imports that a pass makes of matches on a line. -/
def onLine (x : Finder) (found : List Hit) (number : Nat) : List ImportReference :=
  found.flatMap fun h => (x.named h.captured).map fun s => ⟨String.ofList s, x.kind, number⟩

/-- The pass whose matches name one specifier, captured as number one. -/
def single (p : Pattern) (kind : ImportKind) : Finder :=
  ⟨p, fun captured => [(captured.lookup 1).getD []], kind⟩

theorem references_single (p : Pattern) (kind : ImportKind) (cs : List Char) :
    (single p kind).references cs = referencesOf p kind cs := by
  rw [references, referencesOf, single, hits, List.flatMap_map]
  exact List.map_eq_flatMap.symm

end Finder

section Lines

variable {ι κ : Type} {text : ι → List Char} {xs : List ι}

/-- A place on a line has the number of the line. -/
theorem lineOf_layout (htext : ∀ i, '\n' ∉ text i) {l : Placed ι}
    (hl : l ∈ layout text 0 1 xs) {k : Nat} (hk : k ≤ (text l.item).length) :
    lineOf (Path.joinWith '\n' (xs.map text)) (l.offset + k) = l.number := by
  obtain ⟨-, before, after, hjoin, hoffset, hnumber⟩ := exists_append_of_mem_layout htext hl
  have hhead : (Path.joinWith '\n' (xs.map text)).take (l.offset + k) = before ++
      (text l.item).take k := by
    rw [hjoin, hoffset, Nat.zero_add, List.append_assoc, List.take_length_add_append,
      List.take_append_of_le_length hk]
  have hline : ((text l.item).take k).count '\n' = 0 :=
    List.count_eq_zero_of_not_mem fun h => htext l.item (List.mem_of_mem_take h)
  rw [lineOf, hhead, List.count_append, hline, hnumber, Nat.add_zero, Nat.add_comm]

/-- What a pass makes of matches on a line, each with the place where its match starts. -/
def Finder.onPlace (x : Finder) (found : ι → List Hit) (l : Placed ι) :
    List (Nat × ImportReference) :=
  (found l.item).flatMap fun h =>
    (x.named h.captured).map fun s => (l.offset + h.offset, ⟨String.ofList s, x.kind, l.number⟩)

theorem Finder.map_onPlace (x : Finder) (found : ι → List Hit) (l : Placed ι) :
    (x.onPlace found l).map Prod.snd = x.onLine (found l.item) l.number := by
  rw [onPlace, onLine, List.map_flatMap]
  exact List.flatMap_congr fun h _ => List.map_map

/-- What one pass finds in a text of lines. -/
theorem Finder.references_joinWith {x : Finder} {found : ι → List Hit}
    (hadvances : x.pattern.Advances) (hends : x.pattern.SkipsLineEnds) (htext : ∀ i, '\n' ∉ text i)
    (hfound : ∀ i ∈ xs, x.pattern.FindsOn (text i) (found i))
    (hwithin : ∀ i ∈ xs, ∀ h ∈ found i, h.offset ≤ (text i).length) :
    x.references (Path.joinWith '\n' (xs.map text)) =
      (layout text 0 1 xs).flatMap (x.onPlace found) := by
  have hstart : (Cursor.start (Path.joinWith '\n' (xs.map text))).AtLineStart :=
    fun c hc => nomatch hc
  rw [references, hits_joinWith hadvances hends hfound hstart rfl 1, List.flatMap_assoc]
  refine List.flatMap_congr fun l hl => ?_
  rw [List.flatMap_map, onPlace]
  refine List.flatMap_congr fun h hh => ?_
  have hitem := (exists_append_of_mem_layout htext hl).1
  rw [Hit.shift, lineOf_layout htext hl (hwithin l.item hitem h hh)]

/-- **The imports in a text of lines stand line by line.** Each pass finds its matches line by line,
and on one line all matches start at one place. -/
theorem inOrder_joinWith {passes : List κ} {finder : κ → Finder} {found : κ → ι → List Hit}
    (hadvances : ∀ k, (finder k).pattern.Advances) (hends : ∀ k, (finder k).pattern.SkipsLineEnds)
    (htext : ∀ i, '\n' ∉ text i)
    (hfound : ∀ k, ∀ i ∈ xs, (finder k).pattern.FindsOn (text i) (found k i))
    (hplace : ∀ i ∈ xs, ∃ n ≤ (text i).length, ∀ k, ∀ h ∈ found k i, h.offset = n) :
    (((passes.flatMap fun k => (finder k).references (Path.joinWith '\n' (xs.map text))).mergeSort
        fun a b => a.1 ≤ b.1).map Prod.snd) =
      (xs.zipIdx 1).flatMap fun x => passes.flatMap fun k =>
        (finder k).onLine (found k x.1) x.2 := by
  have hwithin : ∀ k, ∀ i ∈ xs, ∀ h ∈ found k i, h.offset ≤ (text i).length := by
    intro k i hi h hh
    obtain ⟨n, hn, hsame⟩ := hplace i hi
    exact (hsame k h hh).trans_le hn
  -- All finds on a line have one place, which lies on the line.
  have hkey : ∀ l ∈ layout text 0 1 xs, ∃ n ≤ (text l.item).length,
      ∀ a ∈ passes.flatMap fun k => (finder k).onPlace (found k) l, a.1 = l.offset + n := by
    intro l hl
    obtain ⟨n, hn, hsame⟩ := hplace l.item (exists_append_of_mem_layout htext hl).1
    refine ⟨n, hn, fun a ha => ?_⟩
    obtain ⟨k, -, ha⟩ := List.mem_flatMap.1 ha
    obtain ⟨h, hh, ha⟩ := List.mem_flatMap.1 ha
    obtain ⟨s, -, rfl⟩ := List.mem_map.1 ha
    exact congrArg (l.offset + ·) (hsame k h hh)
  have honline : ∀ l ∈ layout text 0 1 xs,
      (passes.flatMap fun k => (finder k).onPlace (found k) l).Pairwise fun a b => a.1 ≤ b.1 := by
    intro l hl
    obtain ⟨n, -, hsame⟩ := hkey l hl
    refine List.pairwise_of_forall_mem_list fun a ha b hb => ?_
    exact Nat.le_of_eq ((hsame a ha).trans (hsame b hb).symm)
  have hlines : (layout text 0 1 xs).Pairwise fun l m =>
      ∀ a ∈ passes.flatMap fun k => (finder k).onPlace (found k) l,
        ∀ b ∈ passes.flatMap fun k => (finder k).onPlace (found k) m, a.1 < b.1 := by
    refine (pairwise_layout 0 1 xs).imp_of_mem fun {l m} hl hm hlm a ha b hb => ?_
    obtain ⟨i, hi, hleft⟩ := hkey l hl
    obtain ⟨j, -, hright⟩ := hkey m hm
    have := hleft a ha
    have := hright b hb
    omega
  have hreferences : ∀ k, (finder k).references (Path.joinWith '\n' (xs.map text)) =
      (layout text 0 1 xs).flatMap ((finder k).onPlace (found k)) :=
    fun k => Finder.references_joinWith (hadvances k) (hends k) htext (hfound k) (hwithin k)
  have hnumbers : (layout text 0 1 xs).map (fun l => (l.item, l.number)) = xs.zipIdx 1 :=
    map_layout 0 1 xs
  simp only [hreferences]
  rw [mergeSort_flatMap_flatMap honline hlines, List.map_flatMap, ← hnumbers, List.flatMap_map]
  simp only [List.map_flatMap, Finder.map_onPlace]

/-- Lines one below the other, behind the last one a line feed or none. -/
def stacked (ended : Bool) (lines : List (List Char)) : List Char :=
  Path.joinWith '\n' lines ++ if ended then ['\n'] else []

/-- Behind a line feed at the end of a text stands one more line, which is empty; a line feed
alone stands between two. -/
theorem stacked_eq_joinWith (ended : Bool) (xs : List ι) (text : ι → List Char) :
    ∃ before after : List (Option ι), stacked ended (xs.map text) =
        Path.joinWith '\n' ((before ++ xs.map some ++ after).map fun o => o.elim [] text) ∧
      (∀ o ∈ before ++ after, o = none) ∧ (xs ≠ [] → before = []) := by
  have hsome : (xs.map some).map (fun o : Option ι => o.elim [] text) = xs.map text := by
    rw [List.map_map]
    rfl
  cases ended with
  | false => exact ⟨[], [], by simp [stacked, hsome], by simp, fun _ => rfl⟩
  | true =>
    rcases eq_or_ne xs [] with rfl | hne
    · exact ⟨[none], [none], rfl, by simp, fun h => absurd rfl h⟩
    · refine ⟨[], [none], ?_, by simp, fun _ => rfl⟩
      rw [List.nil_append, List.map_append, hsome, List.map_singleton,
        Path.joinWith_append (mt List.map_eq_nil_iff.1 hne) (List.cons_ne_nil _ _)]
      rfl

/-- **The imports in lines one below the other,** whether a line feed ends the last one or not. -/
theorem inOrder_stacked {passes : List κ} {finder : κ → Finder} {found : κ → ι → List Hit}
    (ended : Bool) (hadvances : ∀ k, (finder k).pattern.Advances)
    (hends : ∀ k, (finder k).pattern.SkipsLineEnds) (htext : ∀ i, '\n' ∉ text i)
    (hfound : ∀ k, ∀ i ∈ xs, (finder k).pattern.FindsOn (text i) (found k i))
    (hplace : ∀ i ∈ xs, ∃ n ≤ (text i).length, ∀ k, ∀ h ∈ found k i, h.offset = n) :
    (((passes.flatMap fun k => (finder k).references (stacked ended (xs.map text))).mergeSort
        fun a b => a.1 ≤ b.1).map Prod.snd) =
      (xs.zipIdx 1).flatMap fun x => passes.flatMap fun k =>
        (finder k).onLine (found k x.1) x.2 := by
  obtain ⟨before, after, hstacked, hempty, hbefore⟩ := stacked_eq_joinWith ended xs text
  have hcases : ∀ o : Option ι, o ∈ before ++ xs.map some ++ after → o = none ∨
      ∃ i ∈ xs, o = some i := by
    intro o ho
    rcases List.mem_append.1 ho with ho | ho
    · rcases List.mem_append.1 ho with ho | ho
      · exact .inl (hempty o (List.mem_append_left _ ho))
      · obtain ⟨i, hi, rfl⟩ := List.mem_map.1 ho
        exact .inr ⟨i, hi, rfl⟩
    · exact .inl (hempty o (List.mem_append_right _ ho))
  have hall : ∀ k, ∀ o : Option ι, o ∈ before ++ xs.map some ++ after →
      (finder k).pattern.FindsOn (o.elim [] text) (o.elim [] (found k)) := by
    intro k o ho
    rcases hcases o ho with rfl | ⟨i, hi, rfl⟩
    · exact findsOn_empty
    · exact hfound k i hi
  have hone : ∀ o : Option ι, o ∈ before ++ xs.map some ++ after →
      ∃ n ≤ (o.elim [] text).length, ∀ k, ∀ h ∈ o.elim [] (found k), h.offset = n := by
    intro o ho
    rcases hcases o ho with rfl | ⟨i, hi, rfl⟩
    · exact ⟨0, Nat.le_refl 0, fun k h hh => absurd hh List.not_mem_nil⟩
    · exact hplace i hi
  have hfeeds : ∀ o : Option ι, '\n' ∉ o.elim [] text := by
    rintro (_ | i)
    · exact List.not_mem_nil
    · exact htext i
  -- On an empty line nothing is found.
  have hnothing : ∀ (os : List (Option ι)) (n : Nat), (∀ o ∈ os, o = none) →
      ((os.zipIdx n).flatMap fun x => passes.flatMap fun k =>
        (finder k).onLine (x.1.elim [] (found k)) x.2) = [] := by
    intro os n hos
    refine List.flatMap_eq_nil_iff.2 fun x hx => List.flatMap_eq_nil_iff.2 fun k _ => ?_
    rw [hos x.1 (List.fst_mem_of_mem_zipIdx hx)]
    rfl
  have hfirst := hnothing before 1 fun o ho => hempty o (List.mem_append_left _ ho)
  rw [hstacked, inOrder_joinWith hadvances hends hfeeds hall hone, List.zipIdx_append,
    List.zipIdx_append, List.flatMap_append, List.flatMap_append, hfirst,
    hnothing after _ fun o ho => hempty o (List.mem_append_right _ ho),
    List.nil_append, List.append_nil]
  rcases eq_or_ne xs [] with rfl | hne
  · rfl
  · rw [hbefore hne, List.zipIdx_map, List.flatMap_map]
    rfl

end Lines
end FromText
end CodeSurvey
