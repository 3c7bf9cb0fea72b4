/-
# Overall progress

Several stages with weights that add up to one hundred each report how much of them is done, from
zero to one hundred. The aggregate is the weighted sum rounded to a whole percentage, and only an
aggregate above all earlier ones is announced. A stage that reports less than before lowers the
sum but announces nothing.
-/

import CodeSurvey.Keyed
import CodeSurvey.Number
import CodeSurvey.Total

namespace CodeSurvey

/-- A stage, its weight, and how much of it is done. -/
structure StageProgress where
  name : String
  weight : Int
  current : Binary64 := Binary64.zero

/-- The stages and the last percentage announced. -/
structure Tracker where
  stages : List StageProgress
  last : Int := 0

/-- A percentage announced, with the label of the step that reached it. -/
structure Announcement where
  label : String
  percent : Int
  deriving DecidableEq, Repr

namespace Tracker

/-- The stages of a survey and their weights. -/
def surveyStages : List (String × Int) :=
  [("init", 1), ("repoInfo", 4), ("commits", 15), ("files", 30), ("quality", 10),
    ("architecture", 10), ("dependencies", 5), ("pr", 5), ("contributors", 5), ("finalizing", 15)]

/-- A tracker of stages at their start; a name given twice keeps its place and
takes its last weight. -/
def ofStages (weights : List (String × Int)) : Except Failure Tracker :=
  let sum := total (weights.map Prod.snd)
  if sum = 100 then
    .ok ⟨(Keyed.ofList weights).map fun (name, w) => ⟨name, w, Binary64.zero⟩, 0⟩
  else .error (.stageWeights sum)

/-- The tracker of a survey at its start. -/
def initial : Tracker := ⟨surveyStages.map fun (name, w) => ⟨name, w, Binary64.zero⟩, 0⟩

/-- A stage's part of the aggregate: its weight times the part of it that is done. -/
def share (s : StageProgress) : Except Failure Binary64 := do
  return (← (Amount.int s.weight).toBinary64) * (s.current / hundred)

/-- The weighted sum of what is done, as a whole percentage. -/
def aggregate (stages : List StageProgress) : Except Failure Int := do
  let total ← stages.foldlM (fun sum s => return sum + (← share s)) Binary64.zero
  total.roundToInt

/-- The stages after one of them reports. -/
def report (stage : String) (x : Binary64) (stages : List StageProgress) : List StageProgress :=
  stages.map fun s => if s.name == stage then { s with current := x } else s

/-- A report that a stage is done to the given amount: the tracker after it, what is announced, and
the last percentage announced. -/
def update (t : Tracker) (stage label : String) (amount : Amount) :
    Tracker × Option Announcement × Except Failure Int :=
  if !t.stages.any (·.name == stage) then (t, none, .error (.unknownStage stage))
  else
    match amount.toBinary64 with
    | .error f => (t, none, .error f)
    | .ok x =>
      let stages := report stage x.clampPercent t.stages
      match aggregate stages with
      | .error f => ({ t with stages }, none, .error f)
      | .ok percent =>
        if t.last < percent then (⟨stages, percent⟩, some ⟨label, percent⟩, .ok percent)
        else ({ t with stages }, none, .ok t.last)

/-- A report that a stage is done. -/
def complete (t : Tracker) (stage label : String) :
    Tracker × Option Announcement × Except Failure Int :=
  t.update stage label (.int 100)

end Tracker
end CodeSurvey
