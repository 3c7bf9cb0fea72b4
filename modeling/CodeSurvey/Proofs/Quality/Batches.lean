/-
# Scoring in batches

The journal of a run without a token is that of its batches: what scoring records of each of their
files, and then how many files are done (`Quality.entries_scoreBatches`). A run whose token stops it
after `k` batches is such a run over the files of these batches, followed by the failure if files
are left (`Quality.scoreBatches_of_stopsAfter`). So the size of a batch shows in the numbers of
files done and nowhere else (`Quality.scoreFiles_in_batches`).
-/

import CodeSurvey.Deadline
import CodeSurvey.Proofs.Keyed
import CodeSurvey.Proofs.Quality
import Mathlib.Algebra.Order.Floor.Div

namespace CodeSurvey

/-- The numbers of items done, each with the number of all items, that a journal records. -/
def advancesOf (es : List Entry) : List (Nat × Nat) :=
  es.filterMap fun e => match e with | .advance done total => some (done, total) | _ => none

theorem advancesOf_append (es fs : List Entry) :
    advancesOf (es ++ fs) = advancesOf es ++ advancesOf fs :=
  List.filterMap_append

theorem advancesOf_flatMap {α : Type} (f : α → List Entry) (xs : List α) :
    advancesOf (xs.flatMap f) = xs.flatMap fun x => advancesOf (f x) := List.filterMap_flatMap ..

namespace Recorded

variable {α β : Type}

/-- Whether a computation advances no count. -/
def Unadvancing (x : Recorded α) : Prop := advancesOf x.entries = []

theorem unadvancing_pure (a : α) : (pure a : Recorded α).Unadvancing := rfl

theorem Unadvancing.bind {x : Recorded α} {f : α → Recorded β} (hx : x.Unadvancing)
    (hf : ∀ a, (f a).Unadvancing) : (x >>= f).Unadvancing := by
  rw [Unadvancing, bind_entries, advancesOf_append, hx, hf]
  rfl

end Recorded

namespace Attempt

variable {α β : Type}

/-- Whether a computation that may fail advances no count. -/
def Unadvancing (x : Attempt α) : Prop := x.outcome.Unadvancing

theorem unadvancing_ofOutcome (x : Except Failure α) : (ofOutcome x).Unadvancing := rfl

theorem Unadvancing.bind {x : Attempt α} {f : α → Attempt β} (hx : x.Unadvancing)
    (hf : ∀ a, (f a).Unadvancing) : (x >>= f).Unadvancing := by
  rw [Unadvancing, outcome_bind]
  refine Recorded.Unadvancing.bind hx fun r => ?_
  cases r with
  | ok a => exact hf a
  | error e => exact Recorded.unadvancing_pure _

end Attempt

namespace Quality

variable (c : Classification) (p : Parser)

theorem unadvancing_measure (f : SourceFile) : (measure c p f).Unadvancing := by
  unfold measure
  dsimp only
  split
  · exact Attempt.unadvancing_ofOutcome (.ok _)
  · split
    · refine Attempt.Unadvancing.bind (Attempt.unadvancing_ofOutcome _) fun parsed => ?_
      split
      · exact Attempt.Unadvancing.bind (Attempt.unadvancing_ofOutcome _) fun _ =>
          Attempt.unadvancing_ofOutcome (.ok _)
      · exact Attempt.Unadvancing.bind rfl fun _ => Attempt.unadvancing_ofOutcome (.ok _)
    · exact Attempt.unadvancing_ofOutcome (.ok _)

/-- Scoring one file advances no count. -/
theorem unadvancing_score (f : SourceFile) : (score c p f).Unadvancing := by
  rw [score]
  refine Recorded.Unadvancing.bind (unadvancing_measure c p f) fun r => ?_
  cases r with
  | ok m => exact Recorded.unadvancing_pure m
  | error e => exact Recorded.Unadvancing.bind rfl fun _ => Recorded.unadvancing_pure _

theorem entries_scoreAll (ms : List QualityMetric) (files : List SourceFile) :
    (scoreAll c p ms files).entries = files.flatMap fun f => (score c p f).entries := by
  induction files generalizing ms with
  | nil => rfl
  | cons f rest ih => rw [scoreAll, Recorded.bind_entries, ih, List.flatMap_cons]

/-- What is recorded of the `j`-th batch of some files, counted from zero, `done` of `total` files
being scored before the first one. -/
def batchEntries (b done total : Nat) (files : List SourceFile) (j : Nat) : List Entry :=
  (((files.drop (j * b)).take b).flatMap fun f => (score c p f).entries) ++
    [.advance (done + min ((j + 1) * b) files.length) total]

/-- One batch less. -/
theorem ceilDiv_eq_succ {n b : Nat} (hn : 0 < n) (hb : 0 < b) : n ⌈/⌉ b = (n - b) ⌈/⌉ b + 1 := by
  rw [Nat.ceilDiv_eq_add_pred_div, Nat.ceilDiv_eq_add_pred_div, ← Nat.add_div_right _ hb]
  rcases Nat.le_total b n with h | h
  · congr 1
    omega
  · rw [Nat.sub_eq_zero_of_le h, Nat.div_eq_of_lt_le (k := 1) (by omega) (by omega),
      Nat.div_eq_of_lt_le (k := 1) (by omega) (by omega)]

/-- The batches after the first one are those of the files that it leaves. -/
theorem batchEntries_succ {b done total : Nat} {files : List SourceFile}
    (h : b ≤ files.length) (j : Nat) :
    batchEntries c p b done total files (j + 1) = batchEntries c p b (done + b) total
      (files.drop b) j := by
  have hplace : (j + 1) * b = b + j * b := by rw [Nat.succ_mul, Nat.add_comm]
  have hend : (j + 1 + 1) * b = b + (j + 1) * b := by rw [Nat.succ_mul, Nat.add_comm]
  have hdone : done + min ((j + 1 + 1) * b) files.length = done + b +
      min ((j + 1) * b) (files.drop b).length := by
    rw [hend, List.length_drop]
    omega
  rw [batchEntries, batchEntries, List.drop_drop, ← hplace, hdone]

/-- The journal of a run without a token is that of its batches. -/
theorem entries_scoreBatches (more total done : Nat) (ms : List QualityMetric)
    (files : List SourceFile) :
    (scoreBatches c p more (fun _ => false) total done ms files).outcome.entries =
      (List.range (files.length ⌈/⌉ (more + 1))).flatMap
        (batchEntries c p (more + 1) done total files) := by
  induction done, ms, files using scoreBatches.induct more (fun _ => false) with
  | case1 done ms =>
    rw [scoreBatches, List.length_nil, zero_ceilDiv]
    rfl
  | case2 done ms f rest hstopped => cases hstopped
  | case3 done ms f rest _ ih =>
    have hfirst : batchEntries c p (more + 1) done total (f :: rest) 0 =
        (scoreAll c p ms (f :: rest.take more)).entries ++
          [.advance (done + (f :: rest.take more).length) total] := by
      rw [batchEntries, entries_scoreAll, Nat.zero_mul, List.drop_zero, List.take_succ_cons,
        List.length_cons, List.length_cons, List.length_take, Nat.zero_add, Nat.one_mul,
        Nat.add_min_add_right]
    have hrest : (List.range ((rest.drop more).length ⌈/⌉ (more + 1))).flatMap
          (batchEntries c p (more + 1) (done + (f :: rest.take more).length) total
            (rest.drop more)) =
        (List.range ((rest.drop more).length ⌈/⌉ (more + 1))).flatMap fun j =>
          batchEntries c p (more + 1) done total (f :: rest) (j + 1) := by
      rcases Nat.lt_or_ge rest.length more with hshort | hlong
      · rw [List.length_drop, Nat.sub_eq_zero_of_le (Nat.le_of_lt hshort), zero_ceilDiv]
        rfl
      · refine List.flatMap_congr fun j _ => ?_
        rw [batchEntries_succ c p (by simpa using hlong), List.drop_succ_cons, List.length_cons,
          List.length_take, Nat.min_eq_left hlong]
    have hcount : (f :: rest).length ⌈/⌉ (more + 1) =
        (rest.drop more).length ⌈/⌉ (more + 1) + 1 := by
      rw [List.length_cons, ceilDiv_eq_succ rest.length.succ_pos more.succ_pos, Nat.succ_sub_succ,
        List.length_drop]
    rw [scoreBatches, if_neg Bool.false_ne_true, Attempt.entries_lift_bind,
      Attempt.entries_lift_bind, ih, hcount, List.range_succ_eq_map, List.flatMap_cons,
      List.flatMap_map, hfirst, hrest, List.append_assoc]
    rfl

/-- Whether a token, asked with the number of files done, stops a run in batches of `b` files when
it has been through `k` of them and not before. -/
def StopsAfter (stopped : Nat → Bool) (b k : Nat) : Prop :=
  (∀ j < k, stopped (j * b) = false) ∧ stopped (k * b) = true

/-- A run that its token stops scores the files of the batches before, and
fails if files are left. -/
theorem scoreBatches_of_stopsAfter {more total done k : Nat} {stopped : Nat → Bool}
    (ms : List QualityMetric) {files : List SourceFile}
    (hruns : ∀ j < k, j * (more + 1) < files.length → stopped (done + j * (more + 1)) = false)
    (hstops : k * (more + 1) < files.length → stopped (done + k * (more + 1)) = true) :
    scoreBatches c p more stopped total done ms files =
      scoreBatches c p more (fun _ => false) total done ms
        (files.take (k * (more + 1))) >>= fun ms' =>
        if k * (more + 1) < files.length then throw (.cancelled step) else pure ms' := by
  induction k generalizing done ms files with
  | zero =>
    rw [Nat.zero_mul, List.take_zero]
    cases files with
    | nil => simp [scoreBatches]
    | cons f rest =>
      have hstop : stopped done = true := by simpa using hstops (by simp)
      rw [scoreBatches.eq_1, pure_bind, scoreBatches, if_pos hstop, if_pos (by simp)]
  | succ k ih =>
    cases files with
    | nil => simp [scoreBatches]
    | cons f rest =>
      have hrun : stopped done = false := by simpa using hruns 0 k.succ_pos (by simp)
      have hplace : ∀ j, (j + 1) * (more + 1) = j * (more + 1) + more + 1 :=
        fun j => by rw [Nat.succ_mul, Nat.add_assoc]
      have hfirst : (rest.take (k * (more + 1) + more)).take more = rest.take more := by
        rw [List.take_take, Nat.min_eq_left (Nat.le_add_left ..)]
      have hrest : (rest.take (k * (more + 1) + more)).drop more =
          (rest.drop more).take (k * (more + 1)) := by
        rw [List.drop_take, Nat.add_sub_cancel]
      have hleft : ∀ j, j * (more + 1) < (rest.drop more).length →
          (j + 1) * (more + 1) < (f :: rest).length ∧
            done + (f :: rest.take more).length + j * (more + 1) = done + (j + 1) * (more + 1) := by
        intro j hj
        rw [List.length_drop] at hj
        rw [hplace, List.length_cons, List.length_cons, List.length_take,
          Nat.min_eq_left (by omega)]
        omega
      have hmore : k * (more + 1) < (rest.drop more).length ↔
          (k + 1) * (more + 1) < (f :: rest).length := by
        rw [hplace, List.length_drop, List.length_cons]
        omega
      rw [scoreBatches, if_neg (by simp [hrun]), hplace, List.take_succ_cons, scoreBatches,
        if_neg Bool.false_ne_true, hfirst, hrest, ← hplace]
      simp only [bind_assoc]
      congr 1
      funext ms'
      congr 1
      funext _
      rw [ih ms' (fun j hj hlt => ?_) fun hlt => ?_]
      · simp only [hmore]
      · rw [(hleft j hlt).2]
        exact hruns (j + 1) (Nat.succ_lt_succ hj) (hleft j hlt).1
      · rw [(hleft k hlt).2]
        exact hstops (hleft k hlt).1

/-- To put a metric in its place is to assign it to its path. -/
theorem map_path_put (m : QualityMetric) (ms : List QualityMetric) :
    (put m ms).map (fun n => (n.path, n)) = Keyed.assign m.path m (ms.map fun n =>
      (n.path, n)) := by
  induction ms with
  | nil => rfl
  | cons n rest ih =>
    rw [Keyed.assign] at ih ⊢
    rw [put, List.map_cons, Keyed.modify]
    split_ifs with h
    · rw [List.map_cons, eq_of_beq h]
    · rw [List.map_cons, ih]

/-- Scoring files one after another assigns the metric of each to its path. -/
theorem map_path_scoreAll (files : List SourceFile) :
    (scoreAll c p [] files).value.map (fun m => (m.path, m)) =
      Keyed.ofList (files.map fun f => (f.path, (score c p f).value)) := by
  have hfrom (ms : List QualityMetric) : (scoreAll c p ms files).value.map (fun m => (m.path, m)) =
      (files.map fun f => (f.path, (score c p f).value)).foldl (fun kept m =>
        Keyed.assign m.1 m.2 kept)
        (ms.map fun m => (m.path, m)) := by
    induction files generalizing ms with
    | nil => rfl
    | cons f rest ih =>
      rw [scoreAll, Recorded.value_bind, ih, map_path_put, (score_scored c p f).path]
      rfl
  exact hfrom []

theorem advancesOf_batchEntries (b done total : Nat) (files : List SourceFile) (j : Nat) :
    advancesOf (batchEntries c p b done total files j) =
      [(done + min ((j + 1) * b) files.length, total)] := by
  have hnone : (((files.drop (j * b)).take b).flatMap fun f =>
      advancesOf (score c p f).entries) = [] :=
    List.flatMap_eq_nil_iff.2 fun f _ => unadvancing_score c p f
  rw [batchEntries, advancesOf_append, advancesOf_flatMap, hnone]
  rfl

/-- The files of the first `k` batches lie in as many batches as there are, but in `k` at most. -/
theorem ceilDiv_min {b : Nat} (hb : 0 < b) (k n : Nat) : min (k * b) n ⌈/⌉ b = min k (n ⌈/⌉ b) := by
  refine eq_of_forall_ge_iff fun m => ?_
  rw [ceilDiv_le_iff_le_mul hb, min_le_iff, min_le_iff, ceilDiv_le_iff_le_mul hb, Nat.mul_comm k b,
    Nat.mul_le_mul_left_iff hb]

/-- The batches of the files of the first `k` batches are the first `k` batches. -/
theorem flatMap_batchEntries_take {b : Nat} (hb : 0 < b) (k total : Nat) (files : List SourceFile) :
    (List.range ((files.take (k * b)).length ⌈/⌉ b)).flatMap
      (batchEntries c p b 0 total (files.take (k * b))) =
      (List.range (min k (files.length ⌈/⌉ b))).flatMap (batchEntries c p b 0 total files) := by
  rw [List.length_take, ceilDiv_min hb]
  refine List.flatMap_congr fun j hj => ?_
  have hlt : j < k := Nat.lt_of_lt_of_le (List.mem_range.1 hj) (Nat.min_le_left ..)
  have hend : (j + 1) * b ≤ k * b := Nat.mul_le_mul_right b hlt
  have hbatch : ((files.take (k * b)).drop (j * b)).take b = (files.drop (j * b)).take b := by
    rw [List.drop_take, List.take_take, Nat.min_eq_left]
    rw [Nat.succ_mul] at hend
    omega
  rw [batchEntries, batchEntries, hbatch, List.length_take, ← Nat.min_assoc, Nat.min_eq_left hend]

/-- The counts that a run without a token advances to. -/
theorem advancesOf_flatMap_batchEntries (b total m : Nat) (files : List SourceFile) :
    advancesOf ((List.range m).flatMap (batchEntries c p b 0 total files)) =
      (List.range' 1 m).map fun k => (min (k * b) files.length, total) := by
  rw [advancesOf_flatMap, List.range'_eq_map_range, List.map_map, List.map_eq_flatMap]
  refine List.flatMap_congr fun j _ => ?_
  rw [advancesOf_batchEntries, Nat.zero_add, Function.comp_apply, Nat.add_comm 1 j]

/-- The last count is that of all files. -/
theorem getLast?_counts {b : Nat} (hb : 0 < b) (n : Nat) :
    ((List.range' 1 (n ⌈/⌉ b)).map fun k => (min (k * b) n, n)).getLast? = if n = 0 then none
      else some (n, n) := by
  split_ifs with hn
  · rw [hn, zero_ceilDiv]
    rfl
  · have hpos : 0 < n ⌈/⌉ b := by
      rw [ceilDiv_eq_succ (Nat.pos_of_ne_zero hn) hb]
      exact Nat.succ_pos _
    have hall : n ≤ b * (n ⌈/⌉ b) := (ceilDiv_le_iff_le_mul hb).1 (Nat.le_refl _)
    obtain ⟨m, hm⟩ := Nat.exists_eq_succ_of_ne_zero (Nat.ne_of_gt hpos)
    rw [hm] at hall ⊢
    rw [Nat.succ_eq_add_one, List.range'_concat, List.map_append, List.map_singleton,
      List.getLast?_concat, Nat.one_mul, Nat.add_comm 1 m, Nat.min_eq_right (by rwa [Nat.mul_comm])]

/-- What comes after a computation that may fail and records nothing leaves the journal as it is. -/
theorem entries_bind_of_silent {α β : Type} (x : Attempt α) {f : α → Attempt β}
    (hf : ∀ a, (f a).outcome.entries = []) : (x >>= f).outcome.entries = x.outcome.entries := by
  rw [Attempt.outcome_bind, Recorded.bind_entries]
  cases x.outcome.value with
  | ok a => exact (congrArg _ (hf a)).trans (List.append_nil _)
  | error e => exact List.append_nil _

/-- A run that its token stops after `k` batches, as one over the files of these batches. -/
theorem scoreFiles_of_stopsAfter {batchSize : Int} {stopped : Nat → Bool} {k : Nat}
    (h : StopsAfter stopped (max 1 batchSize).toNat k) (files : List SourceFile) :
    scoreFiles c p batchSize stopped files =
      scoreBatches c p ((max 1 batchSize).toNat - 1) (fun _ => false) files.length 0 []
          (files.take (k * (max 1 batchSize).toNat)) >>= fun ms =>
        if k * (max 1 batchSize).toNat < files.length then throw (.cancelled step)
        else pure ms := by
  have hmore : (max 1 batchSize).toNat - 1 + 1 = (max 1 batchSize).toNat :=
    Nat.sub_add_cancel (by omega)
  rw [scoreFiles, scoreBatches_of_stopsAfter c p (k := k), hmore]
  · intro j hj _
    rw [hmore, Nat.zero_add]
    exact h.1 j hj
  · intro _
    rw [hmore, Nat.zero_add]
    exact h.2

/-- A run that its token stops fails if files are left, and gives all metrics otherwise. -/
theorem value_scoreFiles_of_stopsAfter {batchSize : Int} {stopped : Nat → Bool} {k : Nat}
    (h : StopsAfter stopped (max 1 batchSize).toNat k) (files : List SourceFile) :
    (scoreFiles c p batchSize stopped files).outcome.value =
      if k * (max 1 batchSize).toNat < files.length then .error (.cancelled step)
      else .ok (scoreAll c p [] files).value := by
  rw [scoreFiles_of_stopsAfter c p h, Attempt.outcome_bind, Recorded.value_bind,
    (scoreBatches_without_token ..).1]
  split_ifs with hleft
  · rfl
  · rw [List.take_of_length_le (Nat.le_of_not_lt hleft)]
    rfl

/-- The journal of a run that its token stops is that of the batches before. -/
theorem entries_scoreFiles_of_stopsAfter {batchSize : Int} {stopped : Nat → Bool} {k : Nat}
    (h : StopsAfter stopped (max 1 batchSize).toNat k) (files : List SourceFile) :
    (scoreFiles c p batchSize stopped files).outcome.entries =
      (scoreBatches c p ((max 1 batchSize).toNat - 1) (fun _ => false) files.length 0 []
        (files.take (k * (max 1 batchSize).toNat))).outcome.entries := by
  rw [scoreFiles_of_stopsAfter c p h, entries_bind_of_silent]
  intro ms
  split_ifs <;> rfl

/-- **Batches do not show.** Without a token, files scored in batches of any size give each path
the metric of its last file, in the order of first mention, and the warnings of the files in
their order, as files scored one by one do. With `b` the size of a batch, of one file at least,
and `n` files, the counts advance to `min (k * b) n` of `n` for each batch `k`, so at last to `n`
of `n`, and not at all if there are no files. A token that stops the run after `k` batches makes
it fail exactly if files are left. The journal is then that of the first `k` batches, the
warnings are those of the first `min (k * b) n` files, and the run is the same whatever stands in
the place of the other files. -/
theorem scoreFiles_in_batches (batchSize : Int) (files : List SourceFile) :
    let b := (max 1 batchSize).toNat
    let n := files.length
    let free := (scoreFiles c p batchSize (fun _ => false) files).outcome
    (∃ ms, free.value = .ok ms ∧
      ms.map (fun m => (m.path, m)) =
        Keyed.ofList (files.map fun f => (f.path, (score c p f).value))) ∧
    free.warnings = files.flatMap (fun f => (score c p f).warnings) ∧
    advancesOf free.entries = (List.range' 1 (n ⌈/⌉ b)).map (fun k => (min (k * b) n, n)) ∧
    (advancesOf free.entries).getLast? = (if n = 0 then none else some (n, n)) ∧
    ∀ stopped k, StopsAfter stopped b k →
      let held := (scoreFiles c p batchSize stopped files).outcome
      held.value = (if k * b < n then .error (.cancelled step) else free.value) ∧
      held.entries = (List.range (min k (n ⌈/⌉ b))).flatMap (batchEntries c p b 0 n files) ∧
      held.warnings = (files.take (k * b)).flatMap (fun f => (score c p f).warnings) ∧
      ∀ others, others.length = n → others.take (k * b) = files.take (k * b) →
        scoreFiles c p batchSize stopped others = scoreFiles c p batchSize stopped files := by
  intro b n free
  have hb : 0 < b := by omega
  have hmore : b - 1 + 1 = b := Nat.sub_add_cancel hb
  have hcounts : advancesOf free.entries = (List.range' 1 (n ⌈/⌉ b)).map fun k =>
      (min (k * b) n, n) := by
    have hentries := entries_scoreBatches c p (b - 1) n 0 [] files
    rw [hmore] at hentries
    exact (congrArg advancesOf hentries).trans (advancesOf_flatMap_batchEntries ..)
  refine ⟨⟨_, (scoreBatches_without_token ..).1, map_path_scoreAll c p files⟩,
    warnings_scoreFiles c p batchSize files, hcounts, by rw [hcounts, getLast?_counts hb], ?_⟩
  intro stopped k hstops held
  have hjournal : held.entries =
      (scoreBatches c p (b - 1) (fun _ => false) n 0 [] (files.take (k * b))).outcome.entries :=
    entries_scoreFiles_of_stopsAfter c p hstops files
  refine ⟨?_, ?_, ?_, ?_⟩
  · have hfree : free.value = .ok (scoreAll c p [] files).value := (scoreBatches_without_token ..).1
    rw [hfree]
    exact value_scoreFiles_of_stopsAfter c p hstops files
  · have hentries := entries_scoreBatches c p (b - 1) n 0 [] (files.take (k * b))
    rw [hmore] at hentries
    rw [hjournal, hentries, flatMap_batchEntries_take c p hb]
  · rw [← warnings_scoreAll c p [], ← (scoreBatches_without_token c p (b - 1) n 0 [] _).2]
    exact congrArg warningsOf hjournal
  · intro others hlength hfirst
    rw [scoreFiles_of_stopsAfter c p hstops others, scoreFiles_of_stopsAfter c p hstops files,
      hlength, hfirst]

/-- What a token answers with `done` files scored in batches of `b` if it is cancelled when
`k` batches are through. -/
def cancelledAfter (d : Deadline) (b k done : Nat) : Bool :=
  ((if k * b ≤ done then d.cancel else d).isStopped []).1

/-- A token without a deadline that is cancelled when `k` batches are through stops the run then. -/
theorem stopsAfter_cancelledAfter {d : Deadline} (hgoes : d.stopped = false) (hdue : d.due = none)
    {b : Nat} (hb : 0 < b) (k : Nat) : StopsAfter (cancelledAfter d b k) b k := by
  refine ⟨fun j hj => ?_, ?_⟩
  · have hearly : ¬k * b ≤ j * b := Nat.not_le.2 (Nat.mul_lt_mul_of_pos_right hj hb)
    simp [cancelledAfter, hearly, Deadline.isStopped, hgoes, hdue]
  · simp [cancelledAfter, Deadline.isStopped, Deadline.cancel]

/-- Three files of which two have one path, in batches of two, with a token that is cancelled
after the first batch. -/
theorem scoreFiles_in_batches_of_three :
    let p : Parser := ⟨standardGrammars, fun _ _ => .error .noParse⟩
    let files : List SourceFile :=
      [{ path := "a.js", content := some "x" }, { path := "b.md" },
        { path := "a.js", content := some "y" }]
    let stopped := cancelledAfter (Deadline.start step none .zero) 2 1
    StopsAfter stopped 2 1 ∧
      advancesOf (scoreFiles .standard p 2 (fun _ => false) files).outcome.entries =
        [(2, 3), (3, 3)] ∧
      (scoreFiles .standard p 2 stopped files).outcome.value = .error (.cancelled "quality") ∧
      (scoreFiles .standard p 2 stopped files).outcome.warnings =
        [⟨"quality", "Quality analysis failed for a.js", some "no parse supplied"⟩] := by
  intro p files stopped
  have hstops : StopsAfter stopped 2 1 := stopsAfter_cancelledAfter rfl rfl Nat.two_pos 1
  obtain ⟨-, -, hcounts, -, hheld⟩ := scoreFiles_in_batches .standard p 2 files
  obtain ⟨hvalue, -, hwarnings, -⟩ := hheld stopped 1 hstops
  exact ⟨hstops, hcounts.trans (by decide), hvalue, hwarnings.trans (by decide +kernel)⟩

end Quality
end CodeSurvey
