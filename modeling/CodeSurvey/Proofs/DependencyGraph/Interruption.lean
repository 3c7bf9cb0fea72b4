/-
# A deadline interrupts and never alters

A build reads the clock at most once for each file, and these readings may be any
(`Clock.exists_reading_eq`). The deadline of a token has passed at a reading if the token was
cancelled or the reading has reached the time it is due (`Deadline.IsPast`). Asked at a reading at
which it has not passed, a token stays as it is and the clock goes on by one reading; asked at one
at which it has, it stops the stage (`Deadline.check_of_not_isPast`, `Deadline.check_of_isPast`). A
token that was seen to stop its stage stays as it is under every later use, so it stops the stage
for good (`Deadline.check_foldl_after`).

By induction on the files, a build is stopped exactly if the deadline has passed at one of the
readings before its files in turn (`GraphBuild.stopsBefore_iff`), and then it fails with the token's
failure (`GraphBuild.value_followAll_of_isPast`). In every other case it cannot be told from a build
without a deadline (`GraphBuild.buildWith_interrupted_only`).
-/

import CodeSurvey.Proofs.DependencyGraph.Deadline
import CodeSurvey.Proofs.Survey.Degradation

namespace CodeSurvey

namespace Clock

/-- The reading that a clock gives after `n` others. -/
def reading (clock : Clock) (n : Nat) : Binary64 :=
  clock.getD (min n (clock.length - 1)) Binary64.zero

theorem reading_zero (clock : Clock) : clock.reading 0 = clock.tick.1 := by
  match clock with
  | [] => rfl
  | [_] => rfl
  | _ :: _ :: _ => rfl

theorem reading_succ (clock : Clock) (n : Nat) :
    clock.reading (n + 1) = clock.tick.2.reading n := by
  match clock with
  | [] => simp [reading, tick]
  | [t] => simp [reading, tick]
  | t :: u :: rest =>
    have hmin : min (n + 1) (rest.length + 1) = min n rest.length + 1 := by omega
    simp [reading, tick, hmin]

/-- The readings that a clock gives before some number of files may be any. -/
theorem exists_reading_eq (times : Nat → Binary64) (n : Nat) : ∃ clock :
    Clock, ∀ i < n, clock.reading i = times i := by
  refine ⟨(List.range n).map times, fun i hi => ?_⟩
  have hmin : min i (n - 1) = i := by omega
  simp [reading, hmin, hi]

end Clock

namespace Deadline

/-- Whether a token stops its stage at a clock reading. -/
def IsPast (d : Deadline) (now : Binary64) : Prop :=
  d.stopped = true ∨ ∃ due, d.due = some due ∧ due.le now = true

/-- At a reading at which the deadline has passed, the stage is stopped. -/
theorem check_of_isPast {d : Deadline} {clock : Clock} (h : d.IsPast (clock.reading 0)) :
    (d.check clock).1 = .error d.failure := by
  rw [Clock.reading_zero] at h
  unfold check isStopped
  cases hstopped : d.stopped with
  | true => simp
  | false =>
    obtain ⟨due, hdue, hle⟩ := h.resolve_left (by simp [hstopped])
    simp [hdue, hle, failure, cancel]

/-- At a reading at which the deadline has not passed, the stage goes on; the token is as before,
and what it says of the readings to come is what it said of them before. -/
theorem check_of_not_isPast {d : Deadline} {clock : Clock} (h : ¬d.IsPast (clock.reading 0)) :
    ∃ rest, d.check clock = (.ok (), d, rest) ∧
      ∀ n, d.IsPast (rest.reading n) ↔ d.IsPast (clock.reading (n + 1)) := by
  rw [Clock.reading_zero, IsPast, not_or, Bool.not_eq_true] at h
  obtain ⟨hstopped, hdue⟩ := h
  cases hd : d.due with
  | none =>
    -- The clock is not read, and no reading matters.
    exact ⟨clock, by simp [check, isStopped, hstopped, hd], fun n => by simp [IsPast, hd]⟩
  | some due =>
    have hle : due.le clock.tick.1 = false := Bool.eq_false_iff.2 fun hle => hdue ⟨due, hd, hle⟩
    exact ⟨clock.tick.2, by simp [check, isStopped, hstopped, hd, hle],
      fun n => by rw [Clock.reading_succ]⟩

/-- A use of a token: it is cancelled, or asked whether to stop. -/
inductive Use
  | cancel
  | ask (clock : Clock)

/-- The token after a use. -/
def after (d : Deadline) : Use → Deadline
  | .cancel => d.cancel
  | .ask clock => (d.isStopped clock).2.1

/-- A token that has been seen to stop its stage is as it was after every use. -/
theorem after_of_stopped {d : Deadline} (h : d.stopped = true) (u : Use) : d.after u = d := by
  cases u with
  | cancel =>
    rw [after, cancel, ← h]
  | ask clock => rw [after, isStopped, if_pos h]

theorem foldl_after_of_stopped {d : Deadline} (h : d.stopped = true) (later : List Use) :
    later.foldl after d = d := by
  induction later with
  | nil => rfl
  | cons u later ih => rw [List.foldl_cons, after_of_stopped h u, ih]

/-- A token that says to stop has been seen to, and is otherwise the same. -/
theorem isStopped_eq_true {d : Deadline} {clock : Clock} (h : (d.isStopped clock).1 = true) :
    (d.isStopped clock).2.1 = d.cancel := by
  unfold isStopped at h ⊢
  cases hstopped : d.stopped with
  | true =>
    rw [if_pos rfl, cancel, ← hstopped]
  | false =>
    rw [hstopped, if_neg Bool.false_ne_true] at h
    rw [if_neg Bool.false_ne_true]
    cases hdue : d.due with
    | none =>
      rw [hdue] at h
      cases h
    | some due =>
      rw [hdue] at h
      dsimp only at h ⊢
      split at h
      · rename_i hle
        rw [if_pos hle]
      · cases h

/-- **Stopped is stopped for good.** Once a token was seen to stop its stage, it stops it at every
later question, whatever it is used for in between and whatever the clock then says. -/
theorem check_foldl_after {d : Deadline} {clock : Clock} (h : (d.isStopped clock).1 = true)
    (later : List Use) (now : Clock) :
    ((later.foldl after (d.isStopped clock).2.1).check now).1 = .error d.failure := by
  rw [isStopped_eq_true h, foldl_after_of_stopped (d := d.cancel) rfl]
  exact check_of_isPast (d := d.cancel) (.inl rfl)

end Deadline

/-- After a step that fails nothing else happens. -/
theorem Attempt.value_bind_of_error {α β : Type} {x : Attempt α} {e : Failure}
    (h : x.outcome.value = .error e) (f : α → Attempt β) : (x >>= f).outcome.value = .error e := by
  rw [outcome_bind, Recorded.value_bind, h]
  rfl

namespace GraphBuild

variable (c : Classification) (scan : Scanner)

theorem askDeadline_of_isPast {d : Deadline} {clock : Clock} (h : d.IsPast (clock.reading 0)) :
    askDeadline (some (d, clock)) = .error d.failure := by
  simp [askDeadline, Deadline.check_of_isPast h, Except.map]

/-- If the deadline has not passed before the next file, it passes before one of the files iff it
does so before one of those after the next, by the clock after the question. -/
theorem askDeadline_of_not_isPast {d : Deadline} {clock : Clock} (h : ¬d.IsPast (clock.reading 0)) :
    ∃ rest, askDeadline (some (d, clock)) = .ok (some (d, rest)) ∧
      ∀ n, (∃ i < n + 1, d.IsPast (clock.reading i)) ↔ ∃ i < n, d.IsPast (rest.reading i) := by
  obtain ⟨rest, hcheck, hreadings⟩ := Deadline.check_of_not_isPast h
  refine ⟨rest, by simp [askDeadline, hcheck, Except.map], fun n => ?_⟩
  rw [Nat.exists_lt_succ_left, or_iff_right h]
  simp only [hreadings]

/-- **When a build is stopped**: before files that can all be scanned, exactly if the deadline has
passed at one of the readings before them in turn. -/
theorem stopsBefore_iff {d : Deadline} {clock : Clock} {files : List SourceFile}
    (h : ∀ f ∈ files, ∃ ss, specifiersOf c scan f = .ok ss) :
    stopsBefore c scan (some (d, clock)) files = true ↔ ∃ i < files.length,
      d.IsPast (clock.reading i) := by
  induction files generalizing clock with
  | nil => simp [stopsBefore]
  | cons f rest ih =>
    rw [stopsBefore]
    by_cases hpast : d.IsPast (clock.reading 0)
    · rw [askDeadline_of_isPast hpast]
      exact iff_of_true rfl ⟨0, Nat.zero_lt_succ _, hpast⟩
    · obtain ⟨ss, hss⟩ := h f (List.mem_cons_self ..)
      obtain ⟨clock', hask, hreadings⟩ := askDeadline_of_not_isPast hpast
      rw [hask, hss, List.length_cons, hreadings]
      exact ih fun g hg => h g (List.mem_cons_of_mem _ hg)

/-- **How a build is stopped**: following imports fails as the token says. -/
theorem value_followAll_of_isPast (known : List String) (total : Nat) {d : Deadline} {clock : Clock}
    {files : List SourceFile} (h : ∀ f ∈ files, ∃ ss, specifiersOf c scan f = .ok ss)
    (hpast : ∃ i < files.length, d.IsPast (clock.reading i)) (done : Nat) (links : Links) :
    (followAll c scan known total (some (d, clock)) done links files).outcome.value =
      .error d.failure := by
  induction files generalizing clock done links with
  | nil =>
    obtain ⟨i, hi, -⟩ := hpast
    exact absurd hi (Nat.not_lt_zero i)
  | cons f rest ih =>
    rw [followAll]
    by_cases hnow : d.IsPast (clock.reading 0)
    · rw [askDeadline_of_isPast hnow]
      exact Attempt.value_bind_of_error rfl _
    · obtain ⟨ss, hss⟩ := h f (List.mem_cons_self ..)
      obtain ⟨clock', hask, hreadings⟩ := askDeadline_of_not_isPast hnow
      rw [hask, hss]
      exact ih (fun g hg => h g (List.mem_cons_of_mem _ hg)) ((hreadings rest.length).1 hpast)
        (done + 1) _

/-- What a build that is stopped gives: the failure of the token. -/
theorem value_buildWith_of_isPast {l : Limits} {d : Deadline} {clock : Clock}
    {files : List SourceFile} (h : ∀ f ∈ analyzable c files, ∃ ss, specifiersOf c scan f = .ok ss)
    (hsize : ((analyzable c files).length : Int) ≤ l.largeRepository)
    (hpast : ∃ i < (analyzable c files).length, d.IsPast (clock.reading i)) :
    (buildWith c scan l (some (d, clock)) files).outcome.value = .error d.failure := by
  unfold buildWith
  dsimp only
  rw [if_neg (Int.not_lt.2 hsize), Attempt.value_lift_bind]
  exact Attempt.value_bind_of_error (value_followAll_of_isPast c scan _ _ h hpast 0 {}) _

/-- **A token interrupts a build and never alters it.** Where all files can be scanned, a build
under a token that was started at a reading, and perhaps cancelled since, gives and records the same
as one without a token, or fails as the token says and warns of nothing. It fails exactly if the
repository is not too large and the token, asked before each file in turn, was cancelled or reads a
time that reaches the start and the timeout. And any token that was once seen to stop its stage
stops it at every later question. The clock may run backwards. -/
theorem buildWith_interrupted_only {l : Limits} {files : List SourceFile}
    (h : ∀ f ∈ files, ∃ ss, scan f.path f.content = .ok ss) (stage : String)
    (timeout : Option Binary64) (start : Binary64) (cancelled : Bool) (clock : Clock) :
    let d : Deadline := { Deadline.start stage timeout start with stopped := cancelled }
    let free := (buildWith c scan l none files).outcome
    let under := (buildWith c scan l (some (d, clock)) files).outcome
    ((under = free ∧ ∃ g, free.value = .ok g) ∨
        (under.value = .error d.failure ∧ under.warnings = [])) ∧
      (under.value = .error d.failure ↔
        ((analyzable c files).length : Int) ≤ l.largeRepository ∧
          ∃ i < (analyzable c files).length,
            cancelled = true ∨ ∃ t, timeout = some t ∧ (start + t).le (clock.reading i) = true) ∧
      ∀ (token : Deadline) (seen : Clock), (token.isStopped seen).1 = true →
        ∀ (later : List Deadline.Use) (now : Clock),
        ((later.foldl Deadline.after (token.isStopped seen).2.1).check now).1 =
          .error token.failure := by
  intro d free under
  have hspecifiers := exists_specifiersOf c h
  have hpast : ∀ t, d.IsPast t ↔ cancelled = true ∨ ∃ s, timeout = some s ∧
      (start + s).le t = true := by
    intro t
    simp [d, Deadline.IsPast, Deadline.start]
  simp only [← hpast]
  by_cases hstops : ((analyzable c files).length : Int) ≤ l.largeRepository ∧
      ∃ i < (analyzable c files).length, d.IsPast (clock.reading i)
  · have herror : under.value = .error d.failure :=
      value_buildWith_of_isPast c scan hspecifiers hstops.1 hstops.2
    exact ⟨.inr ⟨herror, (buildWith_tellsOnce c scan l _ files).of_error _ herror⟩,
      iff_of_true herror hstops, fun token seen hseen => Deadline.check_foldl_after hseen⟩
  · have hgoes : isStopped c scan l (some (d, clock)) files = false := by
      rw [isStopped, Bool.and_eq_false_iff, decide_eq_false_iff_not, ← Bool.not_eq_true,
        stopsBefore_iff c scan hspecifiers]
      exact not_and_or.1 hstops
    have hsame : under = free := congrArg Attempt.outcome (buildWith_of_not_stopped c scan hgoes)
    obtain ⟨g, hg⟩ : ∃ g, free.value = .ok g := buildWith_without_deadline l h
    refine ⟨.inl ⟨hsame, g, hg⟩, iff_of_false (fun herror => ?_) hstops,
      fun token seen hseen => Deadline.check_foldl_after hseen⟩
    rw [hsame, hg] at herror
    cases herror

/-- A clock that runs backwards and reaches the deadline before the third of three files only:
the build fails and warns of nothing, and the token, seen to stop its stage, stops it also when
the clock has run back. -/
theorem buildWith_interrupted_only_of_clock_run_back :
    let scan : Scanner := fun _ _ => .ok ["./b"]
    let files : List SourceFile :=
      [{ path := "src/a.ts" }, { path := "src/b.ts" }, { path := "src/c.ts" }]
    let clock : Clock := [.ofInt 140, .ofInt 10, .ofInt 145, .ofInt 20]
    let d := Deadline.start "architecture" (some (.ofInt 45)) (.ofInt 100)
    (∀ f ∈ files, ∃ ss, scan f.path f.content = .ok ss) ∧
      (buildWith .standard scan {} (some (d, clock)) files).outcome.value =
        .error (.deadlineExceeded "architecture" (.ofInt 45)) ∧
      (buildWith .standard scan {} (some (d, clock)) files).outcome.warnings = [] ∧
      (d.isStopped [.ofInt 145]).1 = true ∧
      ((d.isStopped [.ofInt 145]).2.1.check [.ofInt 20]).1 =
        .error (.deadlineExceeded "architecture" (.ofInt 45)) := by
  intro scan files clock d
  have hscan : ∀ f ∈ files, ∃ ss, scan f.path f.content = .ok ss := fun f _ => ⟨_, rfl⟩
  have hsize : ((analyzable .standard files).length : Int) ≤ ({} : Limits).largeRepository := by
    decide +kernel
  have hlength : 2 < (analyzable .standard files).length := by decide +kernel
  have hreached : ((Binary64.ofInt 100) + Binary64.ofInt 45).le (clock.reading 2) = true := by
    decide +kernel
  have hseen : (d.isStopped [.ofInt 145]).1 = true := by decide +kernel
  obtain ⟨hor, hiff, hstopped⟩ :=
    buildWith_interrupted_only .standard scan (l := {}) hscan "architecture" (some (.ofInt 45))
      (.ofInt 100) false clock
  have herror : (buildWith .standard scan {} (some (d, clock)) files).outcome.value =
      .error d.failure :=
    hiff.2 ⟨hsize, 2, hlength, .inr ⟨_, rfl, hreached⟩⟩
  refine ⟨hscan, herror, ?_, hseen, hstopped d [.ofInt 145] hseen [] [.ofInt 20]⟩
  rcases hor with ⟨hsame, g, hg⟩ | ⟨-, hwarnings⟩
  · rw [← hsame] at hg
    exact nomatch hg.symm.trans herror
  · exact hwarnings

end GraphBuild
end CodeSurvey
