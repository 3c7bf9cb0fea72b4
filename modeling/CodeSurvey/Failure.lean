/-
# What can go wrong

Every cause for which an operation of the library gives no result, and the wording of each. A
failure that comes from outside the library (a plug-in, a text generator, an injected fault) is
`reported` with its kind and what was said. Some failures arise only while another one is put into
words (`Invalid.failure`).
-/

import CodeSurvey.Json
import CodeSurvey.Text.Utf8
import CodeSurvey.Yaml.Fault

namespace CodeSurvey

/-- Why a snapshot cannot be surveyed. -/
inductive Invalid
  | noFiles
  | emptyPath
  | duplicatePaths (paths : List String)
  | fullName (value : Json)
  | url (value : Json)

/-- Why a refusal cannot be put into words where there is room for so many values inside one
another: the value that it is to show cannot be written. -/
def Invalid.unwritable? (room : Nat) : Invalid → Option Json.Unwritable
  | .fullName v => v.unwritable? room
  | .url v => v.unwritable? room
  | _ => none

/-- Why a file cannot be opened. -/
inductive FileFault
  | missing
  | notADirectory
  | isADirectory
  deriving DecidableEq, Repr

/-- The number and the wording of a file fault. -/
def FileFault.message : FileFault → String
  | .missing => "[Errno 2] No such file or directory"
  | .notADirectory => "[Errno 20] Not a directory"
  | .isADirectory => "[Errno 21] Is a directory"

/-- Why an operation has no result. -/
inductive Failure
  | invalidRepository (cause : Invalid)
  | noGrammar (path : String)
  | unknownGrammar (grammar : String)
  | noParse
  | notARole (word : String)
  | dateOutOfRange
  | tooManyDays (days : Int)
  | daysTooLarge
  | sum (fault : Binary64.SumFault)
  | deadlineExceeded (stage : String) (timeout : Binary64)
  | cancelled (stage : String)
  | unknownStage (stage : String)
  | stageWeights (total : Int)
  | notANumber (text : String)
  | integerTooLarge
  | ratioTooLarge
  | notFinite (isUndefined : Bool)
  | integerTooLong (digits : Nat)
  | endlessInteger
  | tooDeep (during : String)
  | scalar (fault : ScalarFault)
  | notYaml (said : String)
  | badConfiguration (reason : String)
  | badManifest (reason : String)
  | notUtf8 (error : Utf8.DecodeError)
  | notEncodable (error : Utf8.EncodeError)
  | notIterable (kind : String)
  | notAnAnalyzer
  | unloadableAnalyzer (name reason : String)
  | unknownAnalyzers (names : List String)
  | noSuchPath (path : String)
  | notADirectory (path : String)
  | file (fault : FileFault) (path : String)
  | reported (kind text : String)

/-- Texts with a comma and a space between them. -/
def commaJoined (xs : List String) : String := ", ".intercalate xs

/-- The wording of a cause for which a snapshot is refused. -/
def Invalid.message : Invalid → String
  | .noFiles => "Repository snapshot contains no files"
  | .emptyPath => "Repository snapshot contains a file with an empty path"
  | .duplicatePaths ps => "Repository snapshot contains duplicate paths: " ++ commaJoined ps
  | .fullName v => "Invalid repository identifier: " ++ v.shown
  | .url v => "Invalid repository URL: " ++ v.shown

/-- The wording of a failure. -/
def Failure.message : Failure → String
  | .invalidRepository cause => cause.message
  | .noGrammar path => "No grammar available for " ++ path
  | .unknownGrammar grammar => "No tree-sitter grammar registered for " ++ Text.quoted grammar
  | .noParse => "no parse supplied"
  | .notARole word => Text.quoted word ++ " is not a valid ModuleType"
  | .dateOutOfRange => "date value out of range"
  | .tooManyDays days =>
    "days=" ++ toString days ++ "; must have magnitude <= 999999999"
  | .daysTooLarge => "Python int too large to convert to C int"
  | .sum fault => fault.message
  | .deadlineExceeded stage timeout =>
    stage ++ " exceeded its " ++ timeout.sixDigits ++ "s deadline"
  | .cancelled stage => stage ++ " was cancelled"
  | .unknownStage stage => "Unknown progress stage: " ++ stage
  | .stageWeights total => "Stage weights must sum to 100, got " ++ toString total
  | .notANumber text => "could not convert string to float: " ++ Text.quoted text
  | .integerTooLarge => "int too large to convert to float"
  | .ratioTooLarge => "integer division result too large for a float"
  | .notFinite isUndefined =>
    if isUndefined then "cannot convert float NaN to integer"
    else "cannot convert float infinity to integer"
  | .integerTooLong digits =>
    "Exceeds the limit (4300 digits) for integer string conversion: value has " ++
      toString digits ++
      " digits; use sys.set_int_max_str_digits() to increase the limit"
  | .endlessInteger =>
    "Exceeds the limit (4300 digits) for integer string conversion; " ++
      "use sys.set_int_max_str_digits() to increase the limit"
  | .tooDeep during => "maximum recursion depth exceeded" ++ during
  | .scalar fault => fault.message
  | .notYaml said => said
  | .badConfiguration reason => reason
  | .badManifest reason => reason
  | .notUtf8 error => error.message
  | .notEncodable error => error.message
  | .notIterable kind => Text.quoted kind ++ " object is not iterable"
  | .notAnAnalyzer => "Analyzer entry point must be an Analyzer subclass or factory"
  | .unloadableAnalyzer name reason =>
    "Failed to load analyzer entry point '" ++ name ++ "': " ++ reason
  | .unknownAnalyzers names => "Unknown analyzers requested: " ++ commaJoined names
  | .noSuchPath path => "Repository path not found: " ++ path
  | .notADirectory path => "Repository path is not a directory: " ++ path
  | .file fault path => fault.message ++ ": " ++ Text.quoted path
  | .reported _ text => text

/-- The failure within a sentence; a name that was not found stands in quotes. -/
def Failure.inSentence : Failure → String
  | .unknownGrammar grammar => Text.quoted (Failure.unknownGrammar grammar).message
  | .unknownStage stage => Text.quoted (Failure.unknownStage stage).message
  | .scalar (.notBoolean text) => Text.quoted text
  | f => f.message

/-- The failure as a warning tells it: its wording, or its kind when nothing was said. -/
def Failure.detail : Failure → String
  | .reported kind text => if text.isEmpty then kind else text
  | f => f.inSentence

/-- A failure reported from outside with a message. -/
def Failure.raised (message : String) : Failure := .reported "RuntimeError" message

/-- The failure of a step that is to write a value. -/
def Failure.ofUnwritable : Json.Unwritable → Failure
  | .endlessInteger => .endlessInteger
  | .tooDeep => .tooDeep " while getting the repr of an object"

/-- The failure of a refusal: itself, or that of putting it into words. -/
def Invalid.failure (room : Nat) (cause : Invalid) : Failure :=
  match cause.unwritable? room with
  | some fault => .ofUnwritable fault
  | none => .invalidRepository cause

/-- A fault is told of, or the value that is to be shown for it cannot be written. -/
theorem Invalid.failure_eq_iff {cause : Invalid} {room : Nat} {e : Failure} :
    e = cause.failure room ↔
      cause.unwritable? room = none ∧ e = .invalidRepository cause ∨
        ∃ fault, cause.unwritable? room = some fault ∧ e = .ofUnwritable fault := by
  unfold Invalid.failure
  cases cause.unwritable? room <;> simp

end CodeSurvey
