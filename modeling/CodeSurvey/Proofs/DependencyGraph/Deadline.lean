/-
# A deadline that does not pass

The deadline of a graph is asked before each file whose imports are followed, and not at all where a
repository is too large (`GraphBuild.isStopped`). Unless one of the answers stops the build, the
deadline and the clock leave no trace: the build gives and records the same as without a deadline
(`GraphBuild.buildWith_of_not_stopped`). So it does not matter when the clock is read, which may be
at other times if other stages run at the same time.
-/

import CodeSurvey.DependencyGraph.Build

namespace CodeSurvey
namespace GraphBuild

variable (c : Classification) (scan : Scanner)

/-- Whether a deadline stops the build before one of the files that are left. Files after one that
cannot be scanned are not asked for. -/
def stopsBefore : (watch : Option (Deadline × Clock)) → List SourceFile → Bool
  | _, [] => false
  | watch, f :: rest =>
    match askDeadline watch, specifiersOf c scan f with
    | .error _, _ => true
    | .ok _, .error _ => false
    | .ok watch, .ok _ => stopsBefore watch rest

/-- Whether a deadline stops the build of a graph. -/
def isStopped (l : Limits) (watch : Option (Deadline × Clock)) (files : List SourceFile) : Bool :=
  (analyzable c files).length ≤ l.largeRepository && stopsBefore c scan watch (analyzable c files)

/-- Imports are followed as without a deadline, unless it stops the build. -/
theorem followAll_of_not_stopsBefore (known : List String) (total : Nat)
    {watch : Option (Deadline × Clock)} {files : List SourceFile}
    (h : stopsBefore c scan watch files = false) (done : Nat) (links : Links) :
    followAll c scan known total watch done links files =
      followAll c scan known total none done links files := by
  induction files generalizing watch done links with
  | nil => rfl
  | cons f rest ih =>
    rw [followAll, followAll]
    rw [stopsBefore] at h
    cases hwatch : askDeadline watch with
    | error e =>
      rw [hwatch] at h
      cases h
    | ok watch' =>
      cases hspecifiers : specifiersOf c scan f with
      | error e => rfl
      | ok specifiers =>
        rw [hwatch, hspecifiers] at h
        have hrest := ih h (done + 1) (links.followFile known f.path specifiers)
        show (_ >>= fun _ =>
            followAll c scan known total watch' (done + 1) _ rest : Attempt Links) = _
        rw [hrest]
        rfl

/-- **A graph is built as without a deadline, unless the deadline stops the build.** -/
theorem buildWith_of_not_stopped {l : Limits} {watch : Option (Deadline × Clock)}
    {files : List SourceFile} (h : isStopped c scan l watch files = false) :
    buildWith c scan l watch files = buildWith c scan l none files := by
  unfold buildWith
  dsimp only
  split
  · rfl
  · rename_i hsmall
    have hnot : stopsBefore c scan watch (analyzable c files) = false := by
      rwa [isStopped, decide_eq_true (Int.not_lt.1 hsmall), Bool.true_and] at h
    rw [followAll_of_not_stopsBefore c scan _ _ hnot]

end GraphBuild
end CodeSurvey
