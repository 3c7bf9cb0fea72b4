/-
# Where a path leads

From a directory, one segment of a path leads on to another: `..` to its parent, and the root is its
own parent; an empty segment and `.` nowhere else; a name to what it names. A path leads where its
segments lead one after the other (`Path.follow`). Resolving it lexically changes its text, but not
where it leads, whatever directory one starts from; and the text that is left has parents first and
names after them (`Path.normalize_spec`). There is no other such text
(`Path.IsResolutionOf.unique`), so this says what resolving a path is.
-/

import CodeSurvey.Proofs.Text

namespace CodeSurvey
namespace Path

open Text

/-- Whether a segment names something. -/
def IsNamed (s : List Char) : Prop := s ≠ [] ∧ s ≠ ['.'] ∧ s ≠ ['.', '.']

/-- Where a segment leads from a directory, which the names from the root give. -/
def enter (d : List (List Char)) (s : List Char) : List (List Char) :=
  if s = ['.', '.'] then d.dropLast else if s = [] ∨ s = ['.'] then d else d ++ [s]

/-- Where segments lead from a directory. -/
def walk (d segments : List (List Char)) : List (List Char) := segments.foldl enter d

/-- Where a path leads from a directory: an absolute one leads there from the root. -/
def follow (d : List (List Char)) (cs : List Char) : List (List Char) :=
  walk (if cs.head? = some '/' then [] else d) (fields '/' cs)

/-- Segments of which none takes back another: parents, which an absolute path
has not, and then names. -/
def IsResolved (absolute : Bool) (segments : List (List Char)) : Prop :=
  ∃ ups names, segments = List.replicate ups ['.', '.'] ++ names ∧
    (∀ s ∈ names, IsNamed s ∧ '/' ∉ s) ∧ (absolute = true → ups = 0)

/-- What the segments kept on the way, the last one first, must be: resolved, and leading from a
directory where `lead` says. An absolute path is followed from the root alone. -/
structure IsKept (absolute : Bool) (kept : List (List Char))
    (lead : List (List Char) → List (List Char)) : Prop where
  resolved : IsResolved absolute kept.reverse
  leads : ∀ d, (absolute = true → d = []) → walk d kept.reverse = lead d

/-- Whether a path is another one resolved: its segments do not take back one another, it starts as
the other one does, and both lead to the same place from every directory. -/
def IsResolutionOf (path base : List Char) : Prop :=
  ∃ segments, base = rootSlashes path ++ joinWith '/' segments ∧
    IsResolved (!(rootSlashes path).isEmpty) segments ∧ ∀ d, follow d base = follow d path

variable {absolute : Bool} {d kept segments xs ys : List (List Char)} {s cs base base' : List Char}

@[simp]
theorem enter_parent : enter d ['.', '.'] = d.dropLast := if_pos rfl

@[simp]
theorem enter_nil : enter d [] = d := rfl

theorem enter_of_isNamed (h : IsNamed s) : enter d s = d ++ [s] := by
  rw [enter, if_neg h.2.2, if_neg (not_or.2 ⟨h.1, h.2.1⟩)]

@[simp]
theorem walk_nil : walk d [] = d := rfl

@[simp]
theorem walk_cons : walk d (s :: segments) = walk (enter d s) segments := rfl

@[simp]
theorem walk_append : walk d (xs ++ ys) = walk (walk d xs) ys := List.foldl_append ..

/-- Names lead to what they name. -/
theorem walk_of_isNamed (h : ∀ s ∈ segments, IsNamed s) : walk d segments = d ++ segments := by
  induction segments generalizing d with
  | nil => exact (List.append_nil d).symm
  | cons s ss ih =>
    obtain ⟨hs, hss⟩ := List.forall_mem_cons.1 h
    rw [walk_cons, enter_of_isNamed hs, ih hss, List.append_assoc, List.singleton_append]

/-- Parents lead up, but not beyond the root. -/
theorem walk_replicate_parent (n : Nat) :
    walk d (List.replicate n ['.', '.']) = d.take (d.length - n) := by
  induction n generalizing d with
  | zero => exact List.take_length.symm
  | succ n ih =>
    rw [List.replicate_succ, walk_cons, enter_parent, ih, List.dropLast_eq_take, List.take_take,
      List.length_take]
    congr 1
    omega

/-- What segments keep after one that is empty, `.` or a name. -/
theorem pushSegment_of_ne_parent (h : s ≠ ['.', '.']) :
    pushSegment absolute kept s = if s = [] ∨ s = ['.'] then kept else s :: kept := by
  simp [pushSegment, h]

/-- A parent takes back the last name, if there is one, and else joins the parents. -/
theorem isKept_pushSegment_parent (h : IsResolved absolute kept.reverse) :
    IsKept absolute (pushSegment absolute kept ['.', '.']) fun d =>
      (walk d kept.reverse).dropLast := by
  obtain ⟨ups, names, hkept, hnames, hups⟩ := h
  rcases List.eq_nil_or_concat' names with rfl | ⟨names, name, rfl⟩
  · rw [List.append_nil] at hkept
    cases ups with
    | zero =>
      obtain rfl : kept = [] := by simpa using hkept
      cases absolute with
      | true => exact ⟨⟨0, [], rfl, hnames, hups⟩, fun d hd => by rw [hd rfl]; rfl⟩
      | false => exact ⟨⟨1, [], rfl, hnames, nofun⟩, fun d _ => rfl⟩
    | succ n =>
      obtain rfl : kept = ['.', '.'] :: List.replicate n ['.', '.'] := by
        rw [← List.reverse_reverse kept, hkept, List.reverse_replicate, List.replicate_succ]
      have hpush : pushSegment absolute (['.', '.'] :: List.replicate n ['.', '.']) ['.', '.'] =
          ['.', '.'] :: ['.', '.'] :: List.replicate n ['.', '.'] := rfl
      rw [hpush]
      refine ⟨⟨n + 2, [], ?_, hnames, fun ha => absurd (hups ha) (Nat.succ_ne_zero n)⟩,
        fun d _ => ?_⟩
      · rw [← List.replicate_succ, ← List.replicate_succ, List.reverse_replicate, List.append_nil]
      · rw [List.reverse_cons, walk_append]
        rfl
  · obtain rfl : kept = name :: (List.replicate ups ['.', '.'] ++ names).reverse := by
      rw [← List.reverse_reverse kept, hkept, ← List.append_assoc, List.reverse_concat]
    have hname : IsNamed name := (hnames name (by simp)).1
    have hpush :
        pushSegment absolute (name :: (List.replicate ups ['.', '.'] ++ names).reverse) ['.', '.'] =
        (List.replicate ups ['.', '.'] ++ names).reverse := by
      simp [pushSegment, hname.2.2]
    rw [hpush, List.reverse_cons, List.reverse_reverse]
    have hnames' : ∀ s ∈ names, IsNamed s ∧ '/' ∉ s :=
      fun s hs => hnames s (List.mem_append_left _ hs)
    refine ⟨⟨ups, names, List.reverse_reverse _, hnames', hups⟩, fun d _ => ?_⟩
    have hlast : walk d (List.replicate ups ['.', '.'] ++ names ++ [name]) =
        walk d (List.replicate ups ['.', '.'] ++ names) ++ [name] := by
      rw [walk_append, walk_cons, walk_nil, enter_of_isNamed hname]
    rw [hlast, List.dropLast_concat, List.reverse_reverse]

/-- **One more segment** leaves what is kept resolved, and leads on from where that led. -/
theorem isKept_pushSegment (h : IsResolved absolute kept.reverse) (hslash : '/' ∉ s) :
    IsKept absolute (pushSegment absolute kept s) fun d => enter (walk d kept.reverse) s := by
  by_cases hs : s = ['.', '.']
  · subst hs
    simpa only [enter_parent] using isKept_pushSegment_parent h
  · obtain ⟨ups, names, hkept, hnames, hups⟩ := h
    rw [pushSegment_of_ne_parent hs]
    by_cases hskip : s = [] ∨ s = ['.']
    · rw [if_pos hskip]
      refine ⟨⟨ups, names, hkept, hnames, hups⟩, fun d _ => ?_⟩
      rw [enter, if_neg hs, if_pos hskip]
    · rw [if_neg hskip]
      have hnamed : IsNamed s := ⟨fun h => hskip (.inl h), fun h => hskip (.inr h), hs⟩
      have hmore : ∀ x ∈ names ++ [s], IsNamed x ∧ '/' ∉ x := by
        intro x hx
        rcases List.mem_append.1 hx with hx | hx
        · exact hnames x hx
        · exact List.mem_singleton.1 hx ▸ ⟨hnamed, hslash⟩
      have heq : (s :: kept).reverse = List.replicate ups ['.', '.'] ++ (names ++ [s]) := by
        rw [List.reverse_cons, hkept, List.append_assoc]
      exact ⟨⟨ups, names ++ [s], heq, hmore, hups⟩,
        fun d _ => by rw [List.reverse_cons, walk_append, walk_cons, walk_nil]⟩

/-- After all segments, what is kept is resolved and leads where they lead. -/
theorem isKept_foldl_pushSegment (h : IsResolved absolute kept.reverse)
    (hslash : ∀ s ∈ segments, '/' ∉ s) :
    IsKept absolute (segments.foldl (pushSegment absolute) kept) fun d =>
      walk (walk d kept.reverse) segments := by
  induction segments generalizing kept with
  | nil => exact ⟨h, fun d _ => rfl⟩
  | cons s ss ih =>
    obtain ⟨hs, hss⟩ := List.forall_mem_cons.1 hslash
    have hstep := isKept_pushSegment h hs
    have hrest := ih hstep.resolved hss
    exact ⟨hrest.resolved,
      fun d hd => by rw [List.foldl_cons, hrest.leads d hd, hstep.leads d hd, walk_cons]⟩

theorem IsResolved.ne_nil_and_not_mem (h : IsResolved absolute segments) :
    ∀ s ∈ segments, s ≠ [] ∧ '/' ∉ s := by
  obtain ⟨ups, names, rfl, hnames, -⟩ := h
  intro s hs
  rcases List.mem_append.1 hs with hs | hs
  · obtain rfl := List.eq_of_mem_replicate hs
    decide
  · exact ⟨(hnames s hs).1.1, (hnames s hs).2⟩

theorem IsResolved.not_mem_here (h : IsResolved absolute segments) : ['.'] ∉ segments := by
  obtain ⟨ups, names, rfl, hnames, -⟩ := h
  intro hmem
  rcases List.mem_append.1 hmem with hmem | hmem
  · exact absurd (List.eq_of_mem_replicate hmem) (by decide)
  · exact (hnames _ hmem).1.2.1 rfl

/-- Resolved segments are known by where they lead. -/
theorem IsResolved.eq_of_walk (hx : IsResolved absolute xs) (hy : IsResolved absolute ys)
    (h : ∀ d, (absolute = true → d = []) → walk d xs = walk d ys) : xs = ys := by
  obtain ⟨m, names, rfl, hnames, hm⟩ := hx
  obtain ⟨n, names', rfl, hnames', hn⟩ := hy
  have hwalk : ∀ d, (absolute = true → d = []) →
      d.take (d.length - m) ++ names = d.take (d.length - n) ++ names' := by
    intro d hd
    have hd' := h d hd
    rwa [walk_append, walk_append, walk_replicate_parent, walk_replicate_parent,
      walk_of_isNamed fun s hs => (hnames s hs).1, walk_of_isNamed fun s hs =>
        (hnames' s hs).1] at hd'
  obtain rfl : names = names' := by simpa using hwalk [] fun _ => rfl
  -- From a directory deep enough, the parents show in how deep one ends.
  have hups : m = n := by
    cases absolute with
    | true => rw [hm rfl, hn rfl]
    | false =>
      have hlength := congrArg List.length
        (List.append_cancel_right (hwalk (List.replicate (m + n) []) nofun))
      simp only [List.length_take, List.length_replicate] at hlength
      omega
  rw [hups]

theorem head?_joinWith_ne_slash (h : ∀ s ∈ segments, s ≠ [] ∧ '/' ∉ s) :
    (joinWith '/' segments).head? ≠ some '/' := by
  intro hhead
  cases segments with
  | nil => cases hhead
  | cons s ss =>
    obtain ⟨⟨hne, hslash⟩, -⟩ := List.forall_mem_cons.1 h
    obtain ⟨c, cs, rfl⟩ := List.exists_cons_of_ne_nil hne
    have hc : (joinWith '/' ((c :: cs) :: ss)).head? = some c := by cases ss <;> rfl
    rw [hc, Option.some.injEq] at hhead
    exact hslash (hhead ▸ List.mem_cons_self ..)

/-- Segments joined lead where they lead. -/
theorem walk_fields_joinWith (h : ∀ s ∈ segments, s ≠ [] ∧ '/' ∉ s) :
    walk d (fields '/' (joinWith '/' segments)) = walk d segments := by
  by_cases hnil : segments = []
  · subst hnil
    rfl
  · rw [fields_joinWith hnil fun s hs => (h s hs).2]

/-- A path that starts with slashes leads on from the root. -/
theorem follow_slash : follow d ('/' :: cs) = walk [] (fields '/' cs) := by
  rw [follow, List.head?_cons, if_pos rfl, fields_cons_self, walk_cons, enter_nil]

theorem rootSlashes_cases (cs : List Char) :
    (rootSlashes cs = [] ∧ cs.head? ≠ some '/') ∨
      ((rootSlashes cs = ['/'] ∨ rootSlashes cs = ['/', '/']) ∧ cs.head? = some '/') := by
  unfold rootSlashes
  split
  · simp
  · simp
  · simp
  · rename_i h
    refine .inl ⟨rfl, fun hhead => ?_⟩
    cases cs with
    | nil => cases hhead
    | cons c cs => exact h cs (by rw [Option.some.inj hhead])

/-- Where the slashes at the start of a path and some segments lead. -/
theorem follow_rootSlashes_append (h : ∀ s ∈ segments, s ≠ [] ∧ '/' ∉ s) :
    follow d (rootSlashes cs ++ joinWith '/' segments) =
      walk (if cs.head? = some '/' then [] else d) segments := by
  rcases rootSlashes_cases cs with ⟨hroot, hhead⟩ | ⟨hroot | hroot, hhead⟩
  · rw [hroot, List.nil_append, follow, if_neg (head?_joinWith_ne_slash h), if_neg hhead,
      walk_fields_joinWith h]
  · rw [hroot, if_pos hhead, List.singleton_append, follow_slash, walk_fields_joinWith h]
  · rw [hroot, if_pos hhead, List.cons_append, List.singleton_append, follow_slash,
      fields_cons_self, walk_cons, enter_nil, walk_fields_joinWith h]

/-- No path with resolved segments is `.`. -/
theorem IsResolved.path_ne_here (h : IsResolved absolute segments) (cs : List Char) :
    rootSlashes cs ++ joinWith '/' segments ≠ ['.'] := by
  intro heq
  rcases rootSlashes_cases cs with ⟨hroot, -⟩ | ⟨hroot | hroot, -⟩
  · rw [hroot, List.nil_append] at heq
    by_cases hnil : segments = []
    · rw [hnil] at heq
      cases heq
    · have hfields := fields_joinWith hnil fun s hs => (h.ne_nil_and_not_mem s hs).2
      rw [heq, fields_of_not_mem (by decide)] at hfields
      exact h.not_mem_here (hfields ▸ List.mem_singleton_self _)
  · rw [hroot] at heq
    cases heq
  · rw [hroot] at heq
    cases heq

theorem isEmpty_rootSlashes (cs : List Char) :
    (!(rootSlashes cs).isEmpty) = decide (cs.head? = some '/') := by
  rcases rootSlashes_cases cs with ⟨hroot, hhead⟩ | ⟨hroot | hroot, hhead⟩ <;> simp [hroot, hhead]

/-- A path has one resolution. -/
theorem IsResolutionOf.unique (h : IsResolutionOf cs base) (h' : IsResolutionOf cs base') :
    base = base' := by
  obtain ⟨xs, rfl, hxs, hleads⟩ := h
  obtain ⟨ys, rfl, hys, hleads'⟩ := h'
  refine congrArg _ (congrArg _ (hxs.eq_of_walk hys fun d hd => ?_))
  have hd' := (hleads d).trans (hleads' d).symm
  rw [follow_rootSlashes_append hxs.ne_nil_and_not_mem,
    follow_rootSlashes_append hys.ne_nil_and_not_mem] at hd'
  rw [isEmpty_rootSlashes, decide_eq_true_eq] at hd
  split at hd'
  · rename_i hhead
    rwa [hd hhead]
  · exact hd'

/-- **A path resolved lexically** is its resolution, or `.` where that is empty. -/
theorem normalize_spec (cs : List Char) :
    ∃ base, IsResolutionOf cs base ∧ base ≠ ['.'] ∧
      normalize cs = if base.isEmpty then ['.'] else base := by
  have hkept := @isKept_foldl_pushSegment (!(rootSlashes cs).isEmpty) [] (fields '/' cs)
    ⟨0, [], rfl, nofun, fun _ => rfl⟩
    fun s hs => not_mem_of_mem_fields hs
  refine ⟨_, ⟨_, rfl, hkept.resolved, fun d => ?_⟩, hkept.resolved.path_ne_here cs, rfl⟩
  have hroot : (!(rootSlashes cs).isEmpty) = true →
      (if cs.head? = some '/' then [] else d) = [] := by
    rw [isEmpty_rootSlashes, decide_eq_true_eq]
    exact fun hhead => if_pos hhead
  rw [follow_rootSlashes_append hkept.resolved.ne_nil_and_not_mem, hkept.leads _ hroot]
  rfl

end Path
end CodeSurvey
