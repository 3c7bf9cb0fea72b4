/-
# Normal paths, and ways up from them

A path is normal if each of its segments names something (`Path.IsNormal`). Such a path leads down
from where one starts, and its directory is what the names before the last one make
(`Path.directory_of_isNormal`). To follow a path that is joined to another one is to follow one
after the other (`Path.follow_join`). So a way up from the directory of a path and a normal path
after it lead to the latter, seen from the directory that the way up ends in (`Path.follow_climb`).
-/

import CodeSurvey.Proofs.Path

namespace CodeSurvey
namespace Path

open Text

/-- Whether every segment of a path names something. -/
def IsNormal (cs : List Char) : Prop := ∀ s ∈ fields '/' cs, IsNamed s

instance (s : List Char) : Decidable (IsNamed s) := inferInstanceAs (Decidable (_ ∧ _ ∧ _))

instance (cs : List Char) : Decidable (IsNormal cs) := inferInstanceAs (Decidable (∀ s ∈ _, _))

/-- The names of the directories on the way to a path. -/
def parents (cs : List Char) : List (List Char) := (fields '/' cs).dropLast

/-- The text that leads up by some directories; for none it is a mark that leads nowhere else. -/
def climb (levels : Nat) : List Char :=
  if levels = 0 then ['.', '/'] else (List.replicate levels ['.', '.', '/']).flatten

variable {a b cs t : List Char} {d names : List (List Char)} {levels : Nat}

theorem IsNormal.of_mem_parents (h : IsNormal cs) : ∀ s ∈ parents cs, IsNamed s ∧ '/' ∉ s :=
  fun s hs => ⟨h s (List.dropLast_subset _ hs), not_mem_of_mem_fields (List.dropLast_subset _ hs)⟩

/-- Names joined by slashes make a normal path. -/
theorem isNormal_joinWith (hne : names ≠ []) (h : ∀ s ∈ names, IsNamed s ∧ '/' ∉ s) :
    IsNormal (joinWith '/' names) := by
  rw [IsNormal, fields_joinWith hne fun s hs => (h s hs).2]
  exact fun s hs => (h s hs).1

theorem upToName_of_not_mem (h : '/' ∉ cs) : upToName cs = [] := by
  refine List.rdropWhile_eq_nil_iff.2 fun c hc => ?_
  exact bne_iff_ne.2 fun heq => h (heq ▸ hc)

theorem upToName_append_cons (h : '/' ∉ b) : upToName (a ++ '/' :: b) = a ++ ['/'] := by
  have hname : ∀ c ∈ b.reverse, (c != '/') = true :=
    fun c hc => bne_iff_ne.2 fun heq => h (heq ▸ List.mem_reverse.1 hc)
  rw [upToName, dropEndWhile, List.reverse_append, List.reverse_cons, List.append_assoc,
    List.dropWhile_append_of_pos hname]
  simp

/-- Names joined by slashes end with the last one. -/
theorem exists_joinWith_concat (names : List (List Char)) (s : List Char) :
    ∃ above, joinWith '/' (names ++ [s]) = above ++ s := by
  by_cases hnil : names = []
  · exact ⟨[], by rw [hnil]; rfl⟩
  · refine ⟨joinWith '/' names ++ ['/'], ?_⟩
    rw [joinWith_append hnil (List.cons_ne_nil s []), List.append_assoc]
    rfl

theorem getLast?_joinWith_ne_slash (h : ∀ s ∈ names, s ≠ [] ∧ '/' ∉ s) :
    (joinWith '/' names).getLast? ≠ some '/' := by
  rcases List.eq_nil_or_concat' names with rfl | ⟨init, s, rfl⟩
  · exact nofun
  · obtain ⟨hne, hslash⟩ := h s (by simp)
    obtain ⟨above, heq⟩ := exists_joinWith_concat init s
    rw [heq, List.getLast?_append_of_ne_nil _ hne]
    exact fun hlast => hslash (List.mem_of_getLast? hlast)

theorem dropEndWhile_concat_slash (h : a.getLast? ≠ some '/') :
    dropEndWhile (· == '/') (a ++ ['/']) = a := by
  have hself : a.rdropWhile (· == '/') = a := by
    refine List.rdropWhile_eq_self_iff.2 fun hne hlast => h ?_
    rw [List.getLast?_eq_some_getLast hne, eq_of_beq hlast]
  exact (List.rdropWhile_concat_pos _ _ _ rfl).trans hself

/-- The directory of a normal path is what its names before the last one make. -/
theorem directory_of_isNormal (h : IsNormal cs) : directory cs = joinWith '/' (parents cs) := by
  obtain ⟨above, name, hfields⟩ :=
    (List.eq_nil_or_concat' (fields '/' cs)).resolve_left (fieldsBy_ne_nil _ cs)
  have hparents : parents cs = above := by rw [parents, hfields, List.dropLast_concat]
  have hplain : ∀ s ∈ above, s ≠ [] ∧ '/' ∉ s :=
    fun s hs => ⟨(h.of_mem_parents s (hparents ▸ hs)).1.1, (h.of_mem_parents s (hparents ▸ hs)).2⟩
  have hname : '/' ∉ name :=
    not_mem_of_mem_fields (hfields ▸ List.mem_append_right above (List.mem_singleton_self name))
  have hcs : cs = joinWith '/' (above ++ [name]) := by rw [← hfields, joinWith_fields]
  rw [hparents]
  by_cases hnil : above = []
  · subst hnil
    have hup : upToName cs = [] := upToName_of_not_mem (hcs ▸ hname)
    rw [directory, hup]
    rfl
  · have hup : upToName cs = joinWith '/' above ++ ['/'] := by
      rw [hcs, joinWith_append hnil (List.cons_ne_nil name [])]
      exact upToName_append_cons hname
    -- The names before the last one are no slashes, so the directory is cut behind them.
    have hsome : ((joinWith '/' above ++ ['/']).all (· == '/')) = false := by
      obtain ⟨c, rest, hjoin⟩ :=
        List.exists_cons_of_ne_nil (joinWith_ne_nil hnil fun s hs => (hplain s hs).1)
      have hc : c ≠ '/' := fun heq => head?_joinWith_ne_slash hplain (by rw [hjoin, heq]; rfl)
      rw [hjoin, List.cons_append, List.all_cons, beq_false_of_ne hc, Bool.false_and]
    rw [directory, hup, hsome, if_neg Bool.false_ne_true,
      dropEndWhile_concat_slash (getLast?_joinWith_ne_slash hplain)]

theorem join_of_slash (h : b.head? = some '/') : join a b = b := by
  rw [join, h, if_pos (beq_self_eq_true _)]

theorem join_of_ne_slash (h : b.head? ≠ some '/') :
    join a b = if a.isEmpty || a.getLast? == some '/' then a ++ b else a ++ '/' :: b := by
  rw [join, if_neg (by simpa using h)]

/-- A joined path starts as its first part does, unless that is empty or the
second part is absolute. -/
theorem head?_join (h : b.head? ≠ some '/') (hne : a ≠ []) : (join a b).head? = a.head? := by
  rw [join_of_ne_slash h]
  split <;> exact List.head?_append_of_ne_nil a hne

/-- The segments of a joined path lead where those of its parts lead one after the other. -/
theorem walk_fields_join (h : b.head? ≠ some '/') (hne : a ≠ []) :
    walk d (fields '/' (join a b)) = walk (walk d (fields '/' a)) (fields '/' b) := by
  rw [join_of_ne_slash h]
  split
  · rename_i hends
    obtain ⟨init, rfl⟩ : ∃ init, a = init ++ ['/'] := by
      rw [List.isEmpty_eq_false_iff.2 hne, Bool.false_or, beq_iff_eq,
        List.getLast?_eq_some_iff] at hends
      exact hends
    have hinit : fields '/' (init ++ ['/']) = fields '/' init ++ [[]] :=
      fields_append_separator '/' init []
    rw [List.append_assoc, List.singleton_append, fields_append_separator, walk_append, hinit,
      walk_append, walk_cons, enter_nil, walk_nil]
  · rw [fields_append_separator, walk_append]

/-- **To follow joined paths** is to follow one after the other. -/
theorem follow_join (d : List (List Char)) (a b : List Char) :
    follow d (join a b) = follow (follow d a) b := by
  by_cases hslash : b.head? = some '/'
  · rw [join_of_slash hslash, follow, follow, if_pos hslash, if_pos hslash]
  · by_cases hnil : a = []
    · subst hnil
      rw [join_of_ne_slash hslash]
      rfl
    · have hb : follow (follow d a) b = walk (follow d a) (fields '/' b) := by
        rw [follow, if_neg hslash]
      rw [hb, follow, head?_join hslash hnil, walk_fields_join hslash hnil, follow]

theorem head?_climb_append : (climb levels ++ t).head? = some '.' := by
  cases levels <;> rfl

/-- The segments of a way up are parents, before those of what follows it. -/
theorem fields_flatten_parents (n : Nat) :
    fields '/' ((List.replicate n ['.', '.', '/']).flatten ++ t) = List.replicate n ['.', '.'] ++
      fields '/' t := by
  induction n with
  | zero => rfl
  | succ n ih =>
    have hfirst : fields '/'
        (['.', '.'] ++ '/' :: ((List.replicate n ['.', '.', '/']).flatten ++ t)) =
        [['.', '.']] ++ fields '/' ((List.replicate n ['.', '.', '/']).flatten ++ t) :=
          fields_append_separator ..
    rw [ih] at hfirst
    exact hfirst

/-- **A way up and a normal path after it** lead to the path below the directory
that the way up ends in. -/
theorem follow_climb (h : IsNormal t) (d : List (List Char)) (levels : Nat) :
    follow d (climb levels ++ t) = d.take (d.length - levels) ++ fields '/' t := by
  have hhead : (climb levels ++ t).head? ≠ some '/' := by
    rw [head?_climb_append]
    decide
  have hfields : walk d (fields '/' (climb levels ++ t)) =
      walk (walk d (List.replicate levels ['.', '.'])) (fields '/' t) := by
    cases levels with
    | zero =>
      have hmark : fields '/' (['.'] ++ '/' :: t) = [['.']] ++ fields '/' t :=
        fields_append_separator ..
      exact (congrArg (walk d) hmark).trans walk_append
    | succ n => rw [climb, if_neg (Nat.succ_ne_zero n), fields_flatten_parents, walk_append]
  rw [follow, if_neg hhead, hfields, walk_replicate_parent, walk_of_isNamed h]

/-- Names joined by slashes lead to what they name. -/
theorem follow_joinWith (h : ∀ s ∈ names, IsNamed s ∧ '/' ∉ s) :
    follow d (joinWith '/' names) = d ++ names := by
  have hplain : ∀ s ∈ names, s ≠ [] ∧ '/' ∉ s := fun s hs => ⟨(h s hs).1.1, (h s hs).2⟩
  rw [follow, if_neg (head?_joinWith_ne_slash hplain), walk_fields_joinWith hplain,
    walk_of_isNamed fun s hs => (h s hs).1]

/-- A path that is not absolute and leads to what some names name is resolved by joining them. -/
theorem isResolutionOf_of_follow (hhead : cs.head? ≠ some '/')
    (hnames : ∀ s ∈ names, IsNamed s ∧ '/' ∉ s) (h : ∀ d, follow d cs = d ++ names) :
    IsResolutionOf cs (joinWith '/' names) := by
  have hroot : rootSlashes cs = [] := by
    rcases rootSlashes_cases cs with ⟨hroot, -⟩ | ⟨-, hslash⟩
    · exact hroot
    · exact absurd hslash hhead
  refine ⟨names, by rw [hroot, List.nil_append], ⟨0, names, rfl, hnames, fun _ => rfl⟩, fun d => ?_⟩
  rw [follow_joinWith hnames, h d]

end Path
end CodeSurvey
