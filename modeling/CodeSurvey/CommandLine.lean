/-
# The command line

A run of the program: the arguments are read, the settings and the checkout are loaded, the survey
is run, and its report is printed or saved as indented JSON. Progress and warnings go to the log.

What a run cannot recover from ends it with status one and a message; a misuse of the options ends
it with status two, a complaint and a reminder of how the command is used. Only a log or a report
that cannot be written is a failure of the run itself.
-/

import CodeSurvey.Checkout
import CodeSurvey.CommandLine.Arguments
import CodeSurvey.Json.Writer
import CodeSurvey.Report
import CodeSurvey.Survey.Run

namespace CodeSurvey
namespace CommandLine

/-- What a run leaves behind: its status, what it printed, what it complained about after its log,
the file that it saved, and its journal. -/
structure Outcome where
  status : Nat := 0
  printed : String := ""
  complaint : String := ""
  saved : Option (String × String) := none
  journal : List Entry := []

/-- The outcome of arguments that ask for no survey. -/
def Stop.outcome : Stop → Outcome
  | .help c => { printed := c.help }
  | .misuse c reason =>
    { status := 2, complaint := c.usage ++ c.name ++ ": error: " ++ reason ++ "\n" }

/-- The message with which a failure ends a run. -/
def endMessage (f : Failure) : String :=
  match f with
  | .noSuchPath _ | .notADirectory _ | .file .missing _ | .file .notADirectory _ =>
    f.message ++ "\n"
  | .badConfiguration _ => "Invalid configuration: " ++ f.message ++ "\n"
  | .invalidRepository _ => "repolens analyze failed: " ++ f.message ++ "\n"
  | _ => "repolens analyze failed: " ++ f.inSentence ++ "\nRun with --verbose for more details.\n"

/-- A percentage in three places. -/
def percentText (n : Int) : String :=
  let digits := toString n
  String.ofList (List.replicate (3 - digits.length) ' ') ++ digits

/-- A journal with a note for each percentage that is announced instead of the steps of progress. -/
def withAnnouncements (t : Tracker) : List Entry → List Entry
  | [] => []
  | .progress stage label amount :: es =>
    let (t, said, _) := t.update stage label (.real amount)
    said.toList.map (fun a => .note .info ("[" ++ percentText a.percent ++ "%] " ++ a.label)) ++
      withAnnouncements t es
  | e :: es => e :: withAnnouncements t es

/-- A file must be writable. -/
def checkWritable (fault? : Option FileFault) (path : String) : Except Failure Unit :=
  match fault? with
  | some fault => .error (.file fault path)
  | none => .ok ()

/-- The workplace with the file for the log, if one is wanted. -/
def withLogFile (w : Workplace) (r : Request) : Except Failure Workplace :=
  match r.logFile with
  | none => .ok w
  | some path => do
    let p := w.absolute path
    checkWritable (w.absoluteWriteFault? p) p
    return w.touch p

/-- The survey of the checkout at a path under the settings that lie there, or at another path. -/
def surveyAt (w : Workplace) (p : Parser) (clock : Clock) (now : Moment) (path : String)
    (config : Option String) :
    Attempt Survey := do
  let settings ← Attempt.ofOutcome (w.settings (config.getD path))
  let repository ← w.load settings path
  let stages := Stages.standard .standard p settings clock now
  let survey ← Attempt.ofOutcome (Survey.run stages .standard p repository)
  (survey : Recorded Survey)

/-- The text of a report. -/
def reportText (s : Survey) : String :=
  (Report.survey Report.metricsByPath Report.sharesByName s).indented ++ "\n"

/-- A run that surveys. -/
def runRequest (w : Workplace) (p : Parser) (clock : Clock) (now : Moment) (r : Request) :
    Except Failure Outcome := do
  let w ← withLogFile w r
  let path := String.ofList (Path.compact (r.path.getD ".").toList)
  let x := (surveyAt w p clock now path r.config).outcome
  let journal := withAnnouncements .initial x.entries
  match x.value with
  | .error f => return { status := 1, complaint := endMessage f, journal }
  | .ok s =>
    match r.output with
    | none => return { printed := reportText s, journal }
    | some output =>
      checkWritable (w.writeFault? output) (String.ofList (Path.compact output.toList))
      return {
        printed := "Analysis written to " ++ w.shown output ++ "\n"
        saved := some (w.absolute output, reportText s)
        journal }

/-- A run with some arguments. -/
def run (w : Workplace) (p : Parser) (clock : Clock) (now : Moment) (arguments : List String) :
    Except Failure Outcome :=
  match read arguments with
  | .error stop => .ok stop.outcome
  | .ok r => runRequest w p clock now r

/-- What a run writes to its console: the notes of its log, then its complaint. -/
def Outcome.consoleText (o : Outcome) : String :=
  "".intercalate (o.journal.map consoleTextOf) ++ o.complaint

end CommandLine
end CodeSurvey
