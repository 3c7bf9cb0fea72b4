/-
# Jobs at the same time

Several jobs share something to read and one journal. A job that is waiting reads what is shared
when it starts; then it records its entries one after another; then it gives its result. Each of
these is one step, and a schedule says which job takes the next step, so that the entries of all
jobs mix in the journal. The jobs that a schedule leaves unfinished are finished at the end, in
order; without a schedule each job runs after the one before it (`Pool.run_nil`).

A step of a job changes neither what any job still has to give nor, but for the entry that it
records, what any job still has to record (`Pool.step_cases`). So the results are those of the jobs
on their own, whatever the schedule is (`Pool.value_run`), and the journal is an interleaving of
theirs (`Pool.entries_run`). Every interleaving comes about by some schedule
(`Pool.exists_schedule`).
-/

import CodeSurvey.Proofs.Interleaving
import CodeSurvey.Proofs.Journal

namespace CodeSurvey

variable {χ α : Type}

/-- A job: it waits to read what is shared, works off what it has to record, or
has given its result. -/
inductive Job (χ α : Type)
  | waiting (body : χ → Recorded α)
  | working (left : List Entry) (result : α)
  | finished (result : α)

namespace Job

/-- What a job still has to record, and its result. -/
def rest (shared : χ) : Job χ α → Recorded α
  | waiting body => body shared
  | working left result => ⟨result, left⟩
  | finished result => ⟨result, []⟩

/-- One step of a job: the job after it, and what it records. -/
def step (shared : χ) : Job χ α → Job χ α × List Entry
  | waiting body => (working (body shared).entries (body shared).value, [])
  | working [] result => (finished result, [])
  | working (e :: left) result => (working left result, [e])
  | finished result => (finished result, [])

/-- **What a step of a job does.** Its result stays, and what it records, which is one entry at
most, comes off what it has to record. -/
theorem rest_step (shared : χ) (j : Job χ α) :
    ((j.step shared).1.rest shared).value = (j.rest shared).value ∧
      (((j.step shared).2 = [] ∧
          ((j.step shared).1.rest shared).entries = (j.rest shared).entries) ∨
        ∃ e, (j.step shared).2 = [e] ∧
          (j.rest shared).entries = e :: ((j.step shared).1.rest shared).entries) := by
  cases j with
  | waiting body => exact ⟨rfl, .inl ⟨rfl, rfl⟩⟩
  | working left result =>
    cases left with
    | nil => exact ⟨rfl, .inl ⟨rfl, rfl⟩⟩
    | cons e left => exact ⟨rfl, .inr ⟨e, rfl, rfl⟩⟩
  | finished result => exact ⟨rfl, .inl ⟨rfl, rfl⟩⟩

end Job

/-- Jobs, what they share, and what they have recorded so far. -/
structure Pool (χ α : Type) where
  shared : χ
  journal : List Entry := []
  jobs : List (Job χ α)

namespace Pool

/-- Jobs that are all waiting. -/
def start (shared : χ) (bodies : List (χ → Recorded α)) : Pool χ α where
  shared := shared
  jobs := bodies.map .waiting

/-- One step of the job in some place, if there is one. -/
def step (p : Pool χ α) (place : Nat) : Pool χ α :=
  match p.jobs[place]? with
  | none => p
  | some j => { p with
      journal := p.journal ++ (j.step p.shared).2
      jobs := p.jobs.set place (j.step p.shared).1 }

/-- Each job finished in order, with all that was recorded. -/
def finish (p : Pool χ α) : Recorded (List α) where
  value := p.jobs.map fun j => (j.rest p.shared).value
  entries := p.journal ++ p.jobs.flatMap fun j => (j.rest p.shared).entries

/-- Jobs that run at the same time: the schedule says which of them takes the next step. -/
def run (schedule : List Nat) (shared : χ) (bodies : List (χ → Recorded α)) : Recorded (List α) :=
  (schedule.foldl step (start shared bodies)).finish

/-- What each job still has to record. -/
def left (p : Pool χ α) : List (List Entry) := p.jobs.map fun j => (j.rest p.shared).entries

/-- The result that each job has given or is going to give. -/
def results (p : Pool χ α) : List α := p.jobs.map fun j => (j.rest p.shared).value

theorem left_start (shared : χ) (bodies : List (χ → Recorded α)) :
    (start shared bodies).left = bodies.map fun body => (body shared).entries := by
  rw [left, start, List.map_map]
  rfl

theorem results_start (shared : χ) (bodies : List (χ → Recorded α)) :
    (start shared bodies).results = bodies.map fun body => (body shared).value := by
  rw [results, start, List.map_map]
  rfl

theorem step_of_none {p : Pool χ α} {place : Nat} (h : p.jobs[place]? = none) :
    p.step place = p := by
  unfold step
  rw [h]

theorem step_of_some {p : Pool χ α} {place : Nat} {j : Job χ α} (h : p.jobs[place]? = some j) :
    p.step place = { p with
      journal := p.journal ++ (j.step p.shared).2
      jobs := p.jobs.set place (j.step p.shared).1 } := by
  unfold step
  rw [h]

/-- The jobs before and after the one in some place stay as they are when it takes a step. -/
theorem exists_jobs_eq {p : Pool χ α} {place : Nat} {j : Job χ α} (h : p.jobs[place]? = some j) :
    ∃ before after, p.jobs = before ++ j :: after ∧
      p.step place = { p with
        journal := p.journal ++ (j.step p.shared).2
        jobs := before ++ (j.step p.shared).1 :: after } := by
  obtain ⟨hplace, hget⟩ := List.getElem?_eq_some_iff.1 h
  refine ⟨p.jobs.take place, p.jobs.drop (place + 1), ?_, ?_⟩
  · rw [← hget, ← List.drop_eq_getElem_cons hplace, List.take_append_drop]
  · rw [step_of_some h, List.set_eq_take_append_cons_drop, if_pos hplace]

/-- **What a step does.** The results and what is shared stay. Either nothing is recorded, or one
job records the next of its entries. -/
theorem step_cases (p : Pool χ α) (place : Nat) :
    (p.step place).results = p.results ∧
      (((p.step place).journal = p.journal ∧ (p.step place).left = p.left) ∨
        ∃ before after e rest, p.left = before ++ (e :: rest) :: after ∧
          (p.step place).journal = p.journal ++ [e] ∧
            (p.step place).left = before ++ rest :: after) := by
  cases hj : p.jobs[place]? with
  | none =>
    rw [step_of_none hj]
    exact ⟨rfl, .inl ⟨rfl, rfl⟩⟩
  | some j =>
    obtain ⟨before, after, hjobs, hstep⟩ := exists_jobs_eq hj
    obtain ⟨hvalue, hentries⟩ := j.rest_step p.shared
    rw [hstep]
    simp only [results, left, hjobs, List.map_append, List.map_cons, hvalue]
    refine ⟨trivial, ?_⟩
    rcases hentries with ⟨hnone, hsame⟩ | ⟨e, hone, hnext⟩
    · rw [hnone, hsame, List.append_nil]
      exact .inl ⟨rfl, rfl⟩
    · rw [hone, hnext]
      exact .inr ⟨_, _, _, _, rfl, rfl, rfl⟩

/-- The results of jobs stay through all steps. -/
theorem results_foldl_step (p : Pool χ α) (schedule : List Nat) :
    (schedule.foldl step p).results = p.results := by
  induction schedule generalizing p with
  | nil => rfl
  | cons place schedule ih => rw [List.foldl_cons, ih, (p.step_cases place).1]

/-- What is recorded from some point on is an interleaving of what the jobs have to record then. -/
theorem entries_foldl_step (p : Pool χ α) (schedule : List Nat) :
    ∃ whole, Interleaves p.left whole ∧
      (schedule.foldl step p).finish.entries = p.journal ++ whole := by
  induction schedule generalizing p with
  | nil => exact ⟨_, Interleaves.flatten _, rfl⟩
  | cons place schedule ih =>
    obtain ⟨whole, hwhole, hentries⟩ := ih (p.step place)
    rcases (p.step_cases place).2 with ⟨hjournal, hleft⟩ | ⟨before, after, e, rest, hleft,
        hjournal, hnext⟩
    · rw [hleft] at hwhole
      rw [hjournal] at hentries
      exact ⟨whole, hwhole, hentries⟩
    · rw [hnext] at hwhole
      rw [hjournal, List.append_assoc, List.singleton_append] at hentries
      exact ⟨e :: whole, hleft ▸ hwhole.next, hentries⟩

/-- **The results do not depend on the schedule.** -/
@[simp] theorem value_run (schedule : List Nat) (shared : χ) (bodies : List (χ → Recorded α)) :
    (run schedule shared bodies).value = bodies.map fun body => (body shared).value :=
  (results_foldl_step _ schedule).trans (results_start shared bodies)

/-- **The journal is an interleaving of those of the jobs.** -/
theorem entries_run (schedule : List Nat) (shared : χ) (bodies : List (χ → Recorded α)) :
    Interleaves (bodies.map fun body => (body shared).entries)
      (run schedule shared bodies).entries := by
  obtain ⟨whole, hwhole, hentries⟩ := entries_foldl_step (start shared bodies) schedule
  rw [left_start] at hwhole
  rw [run, hentries]
  exact hwhole

/-- What is chosen of the journal is an interleaving of what is chosen of those of the jobs. -/
theorem filterMap_entries_run {β : Type} (f : Entry → Option β) (schedule : List Nat) (shared : χ)
    (bodies : List (χ → Recorded α)) :
    Interleaves (bodies.map fun body => (body shared).entries.filterMap f)
      ((run schedule shared bodies).entries.filterMap f) := by
  have hchosen := (entries_run schedule shared bodies).filterMap f
  rwa [List.map_map] at hchosen

/-- Without a schedule each job runs after the one before it. -/
theorem run_nil (shared : χ) (bodies : List (χ → Recorded α)) :
    run [] shared bodies = bodies.mapM fun body => body shared := by
  refine Recorded.ext ?_ ?_
  · rw [value_run, Recorded.value_mapM]
  · rw [Recorded.entries_mapM, run, List.foldl_nil, finish]
    exact List.flatMap_map ..

theorem step_at (shared : χ) (journal : List Entry) (before : List (Job χ α)) (j : Job χ α)
    (after : List (Job χ α)) :
    step ⟨shared, journal, before ++ j :: after⟩ before.length =
      ⟨shared, journal ++ (j.step shared).2, before ++ (j.step shared).1 :: after⟩ := by
  have hplace : (before ++ j :: after)[before.length]? = some j := by simp
  have hset : (before ++ j :: after).set before.length (j.step shared).1 =
      before ++ (j.step shared).1 :: after := by simp
  rw [step_of_some hplace, hset]

/-- A job that has something to record records it in two steps at most. -/
theorem exists_steps {p : Pool χ α} {before after : List (List Entry)} {e : Entry}
    {rest : List Entry} (h : p.left = before ++ (e :: rest) :: after) :
    ∃ places : List Nat, (places.foldl step p).journal = p.journal ++ [e] ∧
      (places.foldl step p).left = before ++ rest :: after := by
  obtain ⟨shared, journal, jobs⟩ := p
  obtain ⟨earlier, later, rfl, rfl, hlater⟩ := List.map_eq_append_iff.1 h
  obtain ⟨j, later, rfl, hj, rfl⟩ := List.map_eq_cons_iff.1 hlater
  cases j with
  | waiting body =>
    -- The first step reads what is shared, and the second one records.
    replace hj : (body shared).entries = e :: rest := hj
    refine ⟨[earlier.length, earlier.length], ?_, ?_⟩ <;>
      simp only [List.foldl_cons, List.foldl_nil, step_at, Job.step, hj, List.append_nil, left,
        List.map_append, List.map_cons, Job.rest]
  | working left result =>
    replace hj : left = e :: rest := hj
    refine ⟨[earlier.length], ?_, ?_⟩ <;>
      simp only [List.foldl_cons, List.foldl_nil, step_at, Job.step, hj, Pool.left, List.map_append,
        List.map_cons, Job.rest]
  | finished result => cases hj

/-- **Every interleaving comes about by some schedule.** -/
theorem exists_schedule (shared : χ) (bodies : List (χ → Recorded α)) {whole : List Entry}
    (h : Interleaves (bodies.map fun body => (body shared).entries) whole) :
    ∃ schedule, (run schedule shared bodies).entries = whole := by
  have hall : ∀ (parts : List (List Entry)) (whole : List Entry), Interleaves parts whole →
      ∀ p : Pool χ α, p.left = parts →
        ∃ schedule : List Nat, (schedule.foldl step p).finish.entries = p.journal ++ whole := by
    intro parts whole hparts
    induction hparts with
    | @done parts hempty =>
      intro p hp
      refine ⟨[], ?_⟩
      show p.journal ++ p.left.flatten = _
      rw [hp, List.flatten_eq_nil_iff.2 hempty]
    | @next before after e rest whole _ ih =>
      intro p hp
      obtain ⟨places, hjournal, hleft⟩ := exists_steps hp
      obtain ⟨schedule, hschedule⟩ := ih _ hleft
      refine ⟨places ++ schedule, ?_⟩
      rw [List.foldl_append, hschedule, hjournal, List.append_assoc, List.singleton_append]
  obtain ⟨schedule, hschedule⟩ := hall _ _ h (start shared bodies) (left_start shared bodies)
  exact ⟨schedule, hschedule⟩

end Pool
end CodeSurvey
