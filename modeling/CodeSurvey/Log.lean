/-
# The log

Notes go to named channels below one root channel. Until the log is configured, only warnings and
what is worse reach the console, bare. A configured log shows notes from the threshold on, on the
console with the root's name and the severity, and in a file, if one is wanted, with the time, the
severity and the channel.
-/

import CodeSurvey.Journal
import CodeSurvey.Text.Lines

namespace CodeSurvey

namespace Severity

/-- The word for a severity. -/
def word : Severity → String
  | debug => "DEBUG"
  | info => "INFO"
  | warning => "WARNING"
  | error => "ERROR"
  | critical => "CRITICAL"

/-- The rank of a severity. -/
def rank : Severity → Nat
  | debug => 0
  | info => 1
  | warning => 2
  | error => 3
  | critical => 4

/-- The severity that a word stands for. -/
def ofWord? (w : String) : Option Severity :=
  [debug, info, warning, error, critical].find? (·.word == w)

end Severity

namespace Log

/-- The name of the root channel. -/
def root : String := "repolens"

/-- The full name of a channel. -/
def channel : Option String → String
  | none => root
  | some name => if name.isEmpty then root else root ++ "." ++ name

/-- A note as the console shows it. -/
def consoleText (severity : Severity) (text : String) : String :=
  "[" ++ root ++ "] " ++ severity.word ++ " " ++ text ++ "\n"

/-- A note as the file shows it, after the time. -/
def fileText (name : Option String) (severity : Severity) (text : String) : String :=
  severity.word ++ " " ++ channel name ++ ": " ++ text ++ "\n"

/-- How the log is configured. -/
structure Config where
  verbose : Bool
  toFile : Bool

/-- The least severity that is shown. -/
def Config.threshold (c : Config) : Severity := if c.verbose then .debug else .info

/-- The log: its configuration, if any yet, and what was written to its file, each note without its
time. -/
structure State where
  config : Option Config := none
  file : List String := []

/-- The log after a note, and what the console shows of it. -/
def State.emit (s : State) (name : Option String) (severity : Severity) (text : String) :
    State × String :=
  match s.config with
  | none => (s, if Severity.warning.rank ≤ severity.rank then text ++ "\n" else "")
  | some c =>
    if severity.rank < c.threshold.rank then (s, "")
    else
      ({ s with file := if c.toFile then s.file ++ [fileText name severity text] else s.file },
        consoleText severity text)

/-- The number of characters of the time before a note in the file. -/
def timeWidth : Nat := 24

/-- The lines of the file without the first characters of each, as many as the time takes. -/
def State.fileLines (s : State) : List String :=
  s.file.flatMap fun note =>
    match Text.lines note.toList with
    | [] => []
    | first :: rest => (first :: rest.map (List.drop timeWidth)).map String.ofList

/-- What the console shows of a warning: the step, the message and the reason. -/
def warningText (w : Warning) : String :=
  let text := "[" ++ w.step ++ "] " ++ w.message
  match w.detail with
  | some d => if d.isEmpty then text else text ++ " (" ++ d ++ ")"
  | none => text

end Log
end CodeSurvey
