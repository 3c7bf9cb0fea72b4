/-
# Grouping by key

A fold that changes the value of the key of each item of a list gives the keys in order of first
mention, each with what the items of this key make of the start (`Keyed.foldl_modify`); if each item
is added to a group, that is the items of the key in order (`Keyed.foldl_modify_group`), also where
items without a key are left out (`Keyed.foldl_modify_group?`). So the keys of the groups are the
distinct keys of the items, and no item is lost or counted twice (`flatMap_filter_perm`), and items
in some order give their keys in the order of the first items that have them
(`pairwise_eraseDups_map`). An item may also mention several keys (`Keyed.foldl_modify_mentions`).
What happens to a key that is not there yet happens at the end (`Keyed.modify_append_of_not_mem`).
-/

import CodeSurvey.Keyed
import Mathlib.Data.List.Induction
import Mathlib.Data.List.Nodup
import Mathlib.Data.List.Perm.Basic

namespace CodeSurvey

variable {α κ : Type} [BEq κ] [LawfulBEq κ]

/-- One more item is a first mention unless it was mentioned before. -/
theorem eraseDups_concat (ks : List κ) (k : κ) :
    (ks ++ [k]).eraseDups = if k ∈ ks then ks.eraseDups else ks.eraseDups ++ [k] := by
  rw [List.eraseDups_append]
  by_cases h : k ∈ ks
  · simp [List.removeAll, h]
  · simp [List.removeAll, h, List.eraseDups_cons]

/-- The distinct items of a list stand once each. -/
theorem nodup_eraseDups (ks : List κ) : ks.eraseDups.Nodup := by
  induction ks using List.reverseRecOn with
  | nil => exact List.nodup_nil
  | append_singleton ks k ih =>
    rw [eraseDups_concat]
    split_ifs with h
    · exact ih
    · rw [List.nodup_append]
      refine ⟨ih, List.nodup_singleton k, fun a ha b hb hab => h ?_⟩
      rw [List.mem_singleton] at hb
      rw [← hb, ← hab]
      exact List.mem_eraseDups.1 ha

/-- Distinct items are not fewer without repetitions. -/
theorem eraseDups_of_nodup {ks : List κ} (h : ks.Nodup) : ks.eraseDups = ks := by
  induction ks using List.reverseRecOn with
  | nil => rfl
  | append_singleton ks k ih =>
    rw [List.nodup_append] at h
    have hnew : k ∉ ks := fun hk => h.2.2 k hk k (List.mem_singleton_self k) rfl
    rw [eraseDups_concat, if_neg hnew, ih h.1]

/-- What is made of the distinct items of a list is distinct where it tells them apart. -/
theorem eraseDups_map_of_injOn {β : Type} [BEq β] [LawfulBEq β] {f : κ → β} {ks : List κ}
    (h : ∀ k ∈ ks, ∀ l ∈ ks, f k = f l → k = l) : (ks.map f).eraseDups = ks.eraseDups.map f := by
  induction ks using List.reverseRecOn with
  | nil => rfl
  | append_singleton ks k ih =>
    have hmem : f k ∈ ks.map f ↔ k ∈ ks := by
      refine ⟨fun hk => ?_, List.mem_map_of_mem⟩
      obtain ⟨l, hl, hlk⟩ := List.mem_map.1 hk
      exact h l (List.mem_append_left _ hl) k (by simp) hlk ▸ hl
    have hrest := ih fun l hl m hm => h l (List.mem_append_left _ hl) m (List.mem_append_left _ hm)
    rw [List.map_append, List.map_singleton, eraseDups_concat, eraseDups_concat, hrest]
    simp only [hmem]
    split_ifs
    · rfl
    · rw [List.map_append, List.map_singleton]

/-- The keys of items in some order are in the order of the first items that have them. -/
theorem pairwise_eraseDups_map {R : α → α → Prop} (keyOf : α → κ) {xs : List α}
    (h : xs.Pairwise R) :
    (xs.map keyOf).eraseDups.Pairwise fun k l =>
      ∀ x y, (xs.find? fun z => keyOf z == k) = some x →
        (xs.find? fun z => keyOf z == l) = some y → R x y := by
  induction xs using List.reverseRecOn with
  | nil => exact List.Pairwise.nil
  | append_singleton xs x ih =>
    obtain ⟨hxs, -, hlast⟩ := List.pairwise_append.1 h
    -- The last item is the first one of its key only if the key is new.
    have hfirst : ∀ k ∈ xs.map keyOf, ((xs ++ [x]).find? fun z => keyOf z == k) = xs.find? fun z =>
        keyOf z == k := by
      intro k hk
      obtain ⟨z, hz, rfl⟩ := List.mem_map.1 hk
      have hfound : (xs.find? fun w => keyOf w == keyOf z).isSome :=
        List.find?_isSome.2 ⟨z, hz, beq_self_eq_true (keyOf z)⟩
      rw [List.find?_append, Option.or_of_isSome hfound]
    have hbefore : (xs.map keyOf).eraseDups.Pairwise fun k l => ∀ x' y,
        ((xs ++ [x]).find? fun z => keyOf z == k) = some x' →
          ((xs ++ [x]).find? fun z => keyOf z == l) = some y → R x' y := by
      refine (ih hxs).imp_of_mem fun {k l} hk hl hkl => ?_
      rwa [hfirst k (List.mem_eraseDups.1 hk), hfirst l (List.mem_eraseDups.1 hl)]
    rw [List.map_append, List.map_singleton, eraseDups_concat]
    split_ifs with hx
    · exact hbefore
    · refine List.pairwise_append.2 ⟨hbefore, List.pairwise_singleton ..,
        fun k hk l hl x' y hx' hy => ?_⟩
      obtain rfl := List.mem_singleton.1 hl
      have hnone : (xs.find? fun z => keyOf z == keyOf x) = none := by
        rw [List.find?_eq_none]
        exact fun z hz hzx => hx (List.mem_map.2 ⟨z, hz, eq_of_beq hzx⟩)
      rw [hfirst k (List.mem_eraseDups.1 hk)] at hx'
      rw [List.find?_append, hnone, Option.none_or, List.find?_singleton,
        if_pos (beq_self_eq_true _)] at hy
      cases hy
      exact hlast x' (List.mem_of_find?_eq_some hx') x (List.mem_singleton_self x)

/-- Of items with distinct keys one has a key of its own. -/
theorem filter_key_eq_singleton {keyOf : α → κ} {xs : List α}
    (h : (xs.map keyOf).Nodup) {x : α} (hx : x ∈ xs) :
    (xs.filter fun y => keyOf y == keyOf x) = [x] := by
  induction xs with
  | nil => exact absurd hx List.not_mem_nil
  | cons z xs ih =>
    rw [List.map_cons, List.nodup_cons] at h
    rcases List.mem_cons.1 hx with rfl | hmem
    · rw [List.filter_cons_of_pos (p := fun y => keyOf y == keyOf x) (BEq.refl _),
        List.filter_eq_nil_iff.2]
      intro y hy hkey
      exact h.1 (List.mem_map.2 ⟨y, hy, beq_iff_eq.1 hkey⟩)
    · have hne : ¬(keyOf z == keyOf x) = true := fun hkey =>
        h.1 (List.mem_map.2 ⟨x, hmem, (beq_iff_eq.1 hkey).symm⟩)
      rw [List.filter_cons_of_neg (p := fun y => keyOf y == keyOf x) hne, ih h.2 hmem]

/-- Sorting items out by their keys loses none and counts none twice. -/
theorem flatMap_filter_perm (keyOf : α → κ) {ks : List κ} (hk : ks.Nodup) {xs : List α}
    (h : ∀ x ∈ xs, keyOf x ∈ ks) :
    (ks.flatMap fun k => xs.filter fun x => keyOf x == k).Perm xs := by
  induction ks generalizing xs with
  | nil =>
    cases xs with
    | nil => exact List.Perm.refl _
    | cons x xs => exact absurd (h x (List.mem_cons_self ..)) List.not_mem_nil
  | cons k ks ih =>
    rw [List.nodup_cons] at hk
    -- The items of the other keys are those that the key `k` leaves.
    have hrest : (ks.flatMap fun l => xs.filter fun x => keyOf x == l) =
        ks.flatMap fun l => (xs.filter fun x => !(keyOf x == k)).filter fun x => keyOf x == l := by
      refine List.flatMap_congr fun l hl => ?_
      rw [List.filter_filter]
      refine List.filter_congr fun x _ => ?_
      by_cases hx : keyOf x = l
      · have hne : keyOf x ≠ k := fun he => hk.1 (he ▸ hx ▸ hl)
        simp [hx, hx ▸ hne]
      · simp [hx]
    rw [List.flatMap_cons, hrest]
    refine ((ih hk.2 ?_).append_left _).trans (List.filter_append_perm _ xs)
    intro x hx
    obtain ⟨hmem, hne⟩ := List.mem_filter.1 hx
    rcases List.mem_cons.1 (h x hmem) with he | he
    · simp [he] at hne
    · exact he

namespace Keyed

/-- What happens to a key that is not there yet happens at the end. -/
theorem modify_append_of_not_mem (key : κ) (start : α) (f : α → α) {ms : List (κ × α)}
    (h : key ∉ ms.map Prod.fst) (ns : List (κ × α)) :
    modify key start f (ms ++ ns) = ms ++ modify key start f ns := by
  induction ms with
  | nil => rfl
  | cons m ms ih =>
    obtain ⟨k, v⟩ := m
    rw [List.map_cons, List.mem_cons, not_or] at h
    rw [List.cons_append, modify, if_neg (by simpa using Ne.symm h.1), ih h.2, List.cons_append]

/-- Pairs with distinct keys stay as they are. -/
theorem ofList_of_nodup {ps : List (κ × α)} (h : (ps.map Prod.fst).Nodup) : ofList ps = ps := by
  induction ps using List.reverseRecOn with
  | nil => rfl
  | append_singleton ps p ih =>
    rw [List.map_append, List.nodup_append] at h
    have hnew : p.1 ∉ ps.map Prod.fst :=
      fun hp => h.2.2 p.1 hp p.1 (List.mem_singleton_self p.1) rfl
    have hlast := modify_append_of_not_mem p.1 p.2 (fun _ => p.2) hnew []
    rw [List.append_nil] at hlast
    rw [ofList, List.foldl_concat]
    refine Eq.trans (congrArg (assign p.1 p.2) (ih h.1)) ?_
    rw [assign, hlast]
    rfl

/-- A change of the value of one key among given ones. -/
theorem modify_map_of_mem (key : κ) (start : α) (f : α → α) (valueOf : κ → α) {ks : List κ}
    (hk : ks.Nodup) (h : key ∈ ks) :
    modify key start f (ks.map fun k => (k, valueOf k)) =
      ks.map fun k => (k, if k == key then f (valueOf k) else valueOf k) := by
  induction ks with
  | nil => exact absurd h List.not_mem_nil
  | cons k ks ih =>
    rw [List.nodup_cons] at hk
    rw [List.map_cons, List.map_cons, modify]
    by_cases he : k = key
    · subst he
      rw [if_pos (beq_self_eq_true k), if_pos (beq_self_eq_true k)]
      congr 1
      refine List.map_congr_left fun l hl => ?_
      have hne : ¬(l == k) = true := fun hlk => hk.1 (eq_of_beq hlk ▸ hl)
      rw [if_neg hne]
    · have hne : ¬(k == key) = true := fun hb => he (eq_of_beq hb)
      rw [if_neg hne, if_neg hne, ih hk.2 ((List.mem_cons.1 h).resolve_left (Ne.symm he))]

/-- The values of other keys stay as they are where one key is given a new value. -/
theorem lookup_map_of_ne {key other : κ} (h : other ≠ key) (value : α) (ms : List (κ × α)) :
    (ms.map fun m => if m.1 == key then (key, value) else m).lookup other = ms.lookup other := by
  induction ms with
  | nil => rfl
  | cons m ms ih =>
    obtain ⟨k, v⟩ := m
    rw [List.map_cons, List.lookup_cons, ih, List.lookup_cons]
    by_cases hk : k = key
    · have hne : (other == key) = false := beq_false_of_ne h
      simp [hk, hne]
    · have hne : ¬(k == key) = true := fun hb => hk (eq_of_beq hb)
      rw [if_neg hne]

/-- **Grouping is exact.** Changing the value of the key of each item gives one value for each key,
in order of first mention, and it is what the items of this key make, in order, of the start. -/
theorem foldl_modify {β : Type} (keyOf : α → κ) (start : β) (f : β → α → β) (xs : List α) :
    xs.foldl (fun groups x => modify (keyOf x) start (f · x) groups) [] =
      (xs.map keyOf).eraseDups.map fun k =>
        (k, (xs.filter fun x => keyOf x == k).foldl f start) := by
  induction xs using List.reverseRecOn with
  | nil => rfl
  | append_singleton xs x ih =>
    rw [List.foldl_concat, ih, List.map_append, List.map_singleton, eraseDups_concat]
    have hvalue : ∀ k, ((xs ++ [x]).filter fun y => keyOf y == k).foldl f start =
        if k == keyOf x then f ((xs.filter fun y => keyOf y == k).foldl f start) x
        else (xs.filter fun y => keyOf y == k).foldl f start := by
      intro k
      rw [List.filter_append]
      by_cases hk : k = keyOf x
      · simp [hk]
      · simp [hk, Ne.symm hk]
    split_ifs with h
    · rw [modify_map_of_mem (keyOf x) start _ _ (nodup_eraseDups _) (List.mem_eraseDups.2 h)]
      exact List.map_congr_left fun k _ => by rw [hvalue]
    · have hnew : keyOf x ∉ ((xs.map keyOf).eraseDups.map fun k =>
          (k, (xs.filter fun y => keyOf y == k).foldl f start)).map Prod.fst := by
        rw [List.map_map]
        simpa using h
      have hnone : (xs.filter fun y => keyOf y == keyOf x) = [] := by
        rw [List.filter_eq_nil_iff]
        intro y hy hyx
        exact h (List.mem_map.2 ⟨y, hy, by simpa using hyx⟩)
      have happend := modify_append_of_not_mem (keyOf x) start (f · x) hnew []
      rw [List.append_nil] at happend
      rw [happend, List.map_append, List.map_singleton, hvalue,
        if_pos (beq_self_eq_true (keyOf x)), hnone]
      congr 1
      refine List.map_congr_left fun k hk => ?_
      rw [hvalue, if_neg]
      intro hb
      rw [eq_of_beq hb] at hk
      exact h (List.mem_eraseDups.1 hk)

/-- The items of a list that have a key, each after its key. -/
def withKey (keyOf : α → Option κ) (xs : List α) : List (κ × α) :=
  xs.filterMap fun x => (keyOf x).map fun k => (k, x)

omit [BEq κ] [LawfulBEq κ] in
theorem map_fst_withKey (keyOf : α → Option κ) (xs : List α) :
    (withKey keyOf xs).map Prod.fst = xs.filterMap keyOf := by
  rw [withKey, List.map_filterMap]
  refine List.filterMap_congr fun x _ => ?_
  cases keyOf x <;> rfl

/-- The items of a key among those that have one. -/
theorem filter_withKey (keyOf : α → Option κ) (xs : List α) (k : κ) :
    ((withKey keyOf xs).filter fun m => m.1 == k).map Prod.snd = xs.filter fun x =>
      keyOf x == some k := by
  induction xs with
  | nil => rfl
  | cons x xs ih =>
    unfold withKey at ih ⊢
    cases hx : keyOf x with
    | none =>
      have hnone : ¬(keyOf x == some k) = true := by simp [hx]
      rw [List.filterMap_cons_none (by rw [hx]; rfl), ih,
        List.filter_cons_of_neg (p := fun x => keyOf x == some k) hnone]
    | some l =>
      rw [List.filterMap_cons_some (by rw [hx]; rfl), List.filter_cons, List.filter_cons, ← ih, hx]
      by_cases hl : l = k <;> simp [hl]

/-- Adding each item that has a key to the group of its key gives one group for each key, in order
of first mention, and in it the items of this key in order. -/
theorem foldl_modify_group? (keyOf : α → Option κ) (xs : List α) :
    xs.foldl (fun groups x =>
      match keyOf x with
      | some k => modify k [] (· ++ [x]) groups
      | none => groups) [] =
      (xs.filterMap keyOf).eraseDups.map fun k => (k, xs.filter fun x => keyOf x == some k) := by
  have hkeyed : xs.foldl (fun groups x =>
      match keyOf x with
      | some k => modify k [] (· ++ [x]) groups
      | none => groups) [] =
      (withKey keyOf xs).foldl (fun groups m => modify m.1 [] (· ++ [m.2]) groups) [] := by
    rw [withKey, List.foldl_filterMap]
    congr 1
    funext groups x
    cases keyOf x <;> rfl
  have hgroup : ∀ ms : List (κ × α), ms.foldl (fun group m => group ++ [m.2]) [] =
      ms.map Prod.snd := fun ms => by
    rw [← List.flatMap_eq_foldl, List.map_eq_flatMap]
  rw [hkeyed, foldl_modify Prod.fst [] (fun group m => group ++ [m.2]), map_fst_withKey]
  exact List.map_congr_left fun k _ => by rw [hgroup, filter_withKey]

/-- Adding each item to the group of its key gives one group for each key, in order of first
mention, and in it the items of this key in order. -/
theorem foldl_modify_group (keyOf : α → κ) (xs : List α) :
    xs.foldl (fun groups x => modify (keyOf x) [] (· ++ [x]) groups) [] =
      (xs.map keyOf).eraseDups.map fun k => (k, xs.filter fun x => keyOf x == k) := by
  rw [foldl_modify_group? (fun x => some (keyOf x)) xs, List.filterMap_eq_map']
  rfl

/-- The keys that items mention, each with the item that mentions it. -/
def mentions (keysOf : α → List κ) (xs : List α) : List (κ × α) :=
  xs.flatMap fun x => (keysOf x).map fun k => (k, x)

/-- The items that mention a key, if none mentions a key twice. -/
theorem filter_mentions (keysOf : α → List κ) {xs : List α}
    (h : ∀ x ∈ xs, (keysOf x).Nodup) (k : κ) :
    ((mentions keysOf xs).filter fun m => m.1 == k).map Prod.snd = xs.filter fun x =>
      (keysOf x).contains k := by
  induction xs with
  | nil => rfl
  | cons x xs ih =>
    have hone : ((keysOf x).filter fun l => l == k) =
        if (keysOf x).contains k then [k] else [] := by
      rw [List.filter_beq, (h x (List.mem_cons_self ..)).count]
      by_cases hk : k ∈ keysOf x <;> simp [hk]
    have hfirst : (((keysOf x).map fun l => (l, x)).filter fun m => m.1 == k) =
        ((keysOf x).filter fun l => l == k).map fun l => (l, x) := List.filter_map
    have hrest := ih fun y hy => h y (List.mem_cons_of_mem x hy)
    rw [mentions] at hrest ⊢
    rw [List.flatMap_cons, List.filter_append, List.map_append, hrest, hfirst, hone,
      List.filter_cons]
    split_ifs <;> rfl

/-- Changing the values of all keys that each item mentions, none of them twice, gives the keys in
order of first mention, each with what the items that mention it make, in order, of the start. -/
theorem foldl_modify_mentions {β : Type} (keysOf : α → List κ) (start : β) (f : β → α → β)
    {xs : List α} (h : ∀ x ∈ xs, (keysOf x).Nodup) :
    xs.foldl (fun ms x => (keysOf x).foldl (fun ms k => modify k start (f · x) ms) ms) [] =
      (xs.flatMap keysOf).eraseDups.map fun k =>
        (k, (xs.filter fun x => (keysOf x).contains k).foldl f start) := by
  have hpass : xs.foldl (fun ms x =>
      (keysOf x).foldl (fun ms k => modify k start (f · x) ms) ms) [] =
      (mentions keysOf xs).foldl (fun ms m => modify m.1 start (f · m.2) ms) [] := by
    rw [mentions, List.foldl_flatMap]
    simp only [List.foldl_map]
  have hkeys : (mentions keysOf xs).map Prod.fst = xs.flatMap keysOf := by
    rw [mentions, List.map_flatMap]
    refine List.flatMap_congr fun x _ => ?_
    rw [List.map_map]
    exact List.map_id _
  rw [hpass, foldl_modify Prod.fst start (fun value m => f value m.2), hkeys]
  refine List.map_congr_left fun k _ => ?_
  rw [← filter_mentions keysOf h, List.foldl_map]

/-- The value of a key among given ones, if it is among them. -/
theorem lookup_map (valueOf : κ → α) (ks : List κ) (key : κ) :
    (ks.map fun k => (k, valueOf k)).lookup key =
      if ks.contains key then some (valueOf key) else none := by
  induction ks with
  | nil => rfl
  | cons k ks ih =>
    rw [List.map_cons, List.lookup_cons, List.contains_cons, ih]
    by_cases he : key = k
    · simp [he]
    · have hne : (key == k) = false := beq_false_of_ne he
      simp only [hne, Bool.false_or]

end Keyed
end CodeSurvey
