/-
# Deadlines

A stage that may take long carries a token and asks it at every step whether to stop. It stops once
the token was cancelled or a clock reading has reached the deadline; from then on it stops at every
later question, whatever the clock says. The clock is a sequence of readings, of which the last
repeats, and a question reads it only when the answer depends on it.
-/

import CodeSurvey.Failure

namespace CodeSurvey

/-- The readings that a clock will give; the last one repeats. -/
abbrev Clock := List Binary64

namespace Clock

/-- The next reading and the clock after it. -/
def tick : Clock → Binary64 × Clock
  | [] => (Binary64.zero, [])
  | [t] => (t, [t])
  | t :: rest => (t, rest)

end Clock

/-- A token: the stage it stops, the time allowed, the time at which it stops it, and whether it has
been seen to. -/
structure Deadline where
  stage : String
  timeout : Option Binary64
  due : Option Binary64
  stopped : Bool := false

namespace Deadline

/-- A token for a stage that starts at a clock reading. -/
def start (stage : String) (timeout : Option Binary64) (now : Binary64) : Deadline :=
  ⟨stage, timeout, timeout.map (now + ·), false⟩

/-- The token after it is cancelled. -/
def cancel (d : Deadline) : Deadline := { d with stopped := true }

/-- Whether the stage is to stop, with the token and the clock after the question. -/
def isStopped (d : Deadline) (clock : Clock) : Bool × Deadline × Clock :=
  if d.stopped then (true, d, clock)
  else
    match d.due with
    | none => (false, d, clock)
    | some due =>
      let (now, clock) := clock.tick
      if due.le now then (true, d.cancel, clock) else (false, d, clock)

/-- The time left at a clock reading, none left once the deadline has passed. -/
def remaining (d : Deadline) (now : Binary64) : Option Binary64 :=
  d.due.map fun due => Binary64.max Binary64.zero (due - now)

/-- The failure of a stage that is stopped. -/
def failure (d : Deadline) : Failure :=
  match d.timeout with
  | some t => .deadlineExceeded d.stage t
  | none => .cancelled d.stage

/-- Goes on unless the stage is to stop. -/
def check (d : Deadline) (clock : Clock) : Except Failure Unit × Deadline × Clock :=
  let (stop, d, clock) := d.isStopped clock
  (if stop then .error d.failure else .ok (), d, clock)

end Deadline
end CodeSurvey
