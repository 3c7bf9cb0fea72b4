/-
# Reading the arguments

An argument that starts with a hyphen is an option, unless it is a hyphen alone, a negative number,
or holds a space and is no option; all after `--` are words. A long name may be cut short as long as
it is clear which one is meant, and its value may follow an equals sign. Short names of options
without a value may be run together, and the value of a short name may follow at once.

The program's options come first, then the command and its own. What is left over is complained
about at the end, so that a call for help before it is heard.
-/

import CodeSurvey.CommandLine.Usage
import CodeSurvey.Text.Lines
import CodeSurvey.Text.Quoted

namespace CodeSurvey
namespace CommandLine

/-- What the arguments ask for. -/
structure Request where
  path : Option String := none
  config : Option String := none
  output : Option String := none
  logFile : Option String := none
  verbose : Bool := false
  leftOver : List String := []

/-- Why the arguments ask for no survey: the help is wanted, or something is wrong. -/
inductive Stop
  | help (c : Command)
  | misuse (c : Command) (reason : String)

/-- An argument as a command understands it. -/
inductive Token
  | word (s : String)
  | divider
  | option (form : OptionForm) (name : String) (value : Option String)
  | unknown (s : String)

namespace Command

/-- The options of a command by name. -/
def named (c : Command) : List (String × OptionForm) :=
  c.options.flatMap fun o => o.names.map fun n => (n, o)

/-- The option of exactly this name. -/
def named? (c : Command) (name : String) : Option OptionForm := c.named.lookup name

/-- What an argument before and after its first equals sign is. -/
def cutValue (s : String) : String × Option String :=
  let (name, value) := Text.cutAt '=' s.toList
  (String.ofList name, value.map String.ofList)

/-- The options that an argument may mean without naming one exactly. -/
def meanings (c : Command) (s : String) : List (OptionForm × String × Option String) :=
  if s.startsWith "--" then
    let (name, value) := cutValue s
    c.named.filterMap fun (n, o) => if n.startsWith name then some (o, n, value) else none
  else
    let short := String.ofList (s.toList.take 2)
    let rest := String.ofList (s.toList.drop 2)
    c.named.filterMap fun (n, o) =>
      if n == short then some (o, n, some rest) else if n.startsWith s then
        some (o, n, none) else none

/-- Whether a text is a negative number; a line feed may end it. -/
def isNegativeNumber (cs : List Char) : Bool :=
  let isDigit (c : Char) : Bool := (Text.digitValue? c).isSome
  let areDigits (cs : List Char) : Bool := !cs.isEmpty && cs.all isDigit
  match if cs.getLast? == some '\n' then cs.dropLast else cs with
  | '-' :: r =>
    areDigits r ||
      match Text.cutAt '.' r with
      | (whole, some fraction) => whole.all isDigit && areDigits fraction
      | _ => false
  | _ => false

/-- The exact meaning of an argument, if it names an option with or without a value. -/
def exactly? (c : Command) (s : String) : Option Token :=
  match c.named? s with
  | some o => some (.option o s none)
  | none =>
    match cutValue s with
    | (name, some value) => (c.named? name).map fun o => .option o name (some value)
    | _ => none

/-- What an argument is. -/
def token (c : Command) (s : String) : Except Stop Token :=
  if !s.startsWith "-" || s == "-" then .ok (.word s)
  else
    match c.exactly? s with
    | some t => .ok t
    | none =>
      match c.meanings s with
      | [(o, name, value)] => .ok (.option o name value)
      | [] =>
        .ok (if isNegativeNumber s.toList || s.toList.contains ' ' then .word s else .unknown s)
      | several =>
        .error (.misuse c
          ("ambiguous option: " ++ s ++ " could match " ++
            ", ".intercalate (several.map fun m => m.2.1)))

/-- What the arguments are, each with its text. -/
def tokens (c : Command) : List String → Except Stop (List (String × Token))
  | [] => .ok []
  | s :: rest =>
    if s == "--" then .ok ((s, .divider) :: rest.map fun r => (r, .word r))
    else do return (s, ← c.token s) :: (← tokens c rest)

/-- A complaint about an option. -/
def complaint (c : Command) (o : OptionForm) (reason : String) : Stop :=
  .misuse c ("argument " ++ o.label ++ ": " ++ reason)

end Command

/-- What an option in an argument asks for; `awaits` is for a value that is the next argument. -/
inductive Step
  | flag (key : Key)
  | value (key : Key) (s : String)
  | awaits (form : OptionForm)

/-- The step of an option that no value stands with. -/
def OptionForm.bare (o : OptionForm) : Step := if o.takesValue then .awaits o else .flag o.key

/-- The steps of an option with a text that stands with it: its value, or more short names. -/
def stepsWith (c : Command) (o : OptionForm) (isShort : Bool) (text : List Char) :
    Except Stop (List Step) :=
  if o.takesValue then .ok [.value o.key (String.ofList text)]
  else
    let ignored := c.complaint o ("ignored explicit argument " ++ Text.quoted (String.ofList text))
    match text with
    | [] => .error ignored
    | n :: rest =>
      if !isShort then .error ignored
      else
        match c.named? (String.ofList ['-', n]) with
        | none => .error ignored
        | some next =>
          if rest.isEmpty then .ok [.flag o.key, next.bare]
          else (stepsWith c next true rest).map (.flag o.key :: ·)

/-- The steps of an option. -/
def stepsOf (c : Command) (o : OptionForm) (name : String) : Option String → Except Stop (List Step)
  | none => .ok [o.bare]
  | some v => stepsWith c o (!name.startsWith "--") v.toList

/-- The request after a step. -/
def Request.take (c : Command) (next : Option String) (r : Request) : Step → Except Stop Request
  | .flag .help => .error (.help c)
  | .flag _ => .ok { r with verbose := true }
  | .value .config s => .ok { r with config := some s }
  | .value .output s => .ok { r with output := some s }
  | .value _ s => .ok { r with logFile := some s }
  | .awaits o =>
    match o.key with
    | .config => .ok { r with config := next }
    | .output => .ok { r with output := next }
    | _ => .ok { r with logFile := next }

/-- The word that comes next. -/
def nextWord : List (String × Token) → Option String
  | (_, .word s) :: _ => some s
  | _ => none

/-- The option that awaits a value among some steps. -/
def awaiting? (steps : List Step) : Option OptionForm :=
  steps.findSome? fun s => match s with | .awaits o => some o | _ => none

/-- The request after an option, and whether the option took the argument after it. -/
def Request.takeOption (c : Command) (r : Request) (o : OptionForm) (name : String)
    (value : Option String) (rest : List (String × Token)) : Except Stop (Request × Bool) := do
  let steps ← stepsOf c o name value
  match awaiting? steps, nextWord rest with
  | some o, none => throw (c.complaint o "expected one argument")
  | awaited, next => return (← steps.foldlM (take c next) r, awaited.isSome)

/-- The arguments of the command. -/
def readCommand (c : Command) (r : Request) : List (String × Token) → Except Stop Request
  | [] => .ok r
  | (s, .divider) :: rest =>
    let words := rest.map Prod.fst
    match r.path, words with
    | some _, _ => .ok { r with leftOver := r.leftOver ++ s :: words }
    | none, [] => .ok r
    | none, w :: more => .ok { r with path := some w, leftOver := r.leftOver ++ more }
  | (s, .word _) :: (d, .divider) :: rest =>
    let words := rest.map Prod.fst
    if r.path.isSome then .ok { r with leftOver := r.leftOver ++ s :: d :: words }
    else .ok { r with path := some s, leftOver := r.leftOver ++ words }
  | (s, .word _) :: rest =>
    if r.path.isSome then readCommand c { r with leftOver := r.leftOver ++ [s] } rest
    else readCommand c { r with path := some s } rest
  | (s, .unknown _) :: rest => readCommand c { r with leftOver := r.leftOver ++ [s] } rest
  | (_, .option o name value) :: rest => do
    let (r, took) ← r.takeOption c o name value rest
    readCommand c r (rest.drop (if took then 1 else 0))
termination_by ts => ts.length
decreasing_by all_goals simp only [List.length_cons, List.length_drop]; omega

/-- The complaint about a word that is no command. -/
def noSuchCommand (c : Command) (s : String) : Stop :=
  .misuse c
    ("argument command: invalid choice: " ++ Text.quoted s ++ " (choose from " ++
      Text.quoted commandName ++ ")")

/-- The arguments of the program, of which `command` reads those after the command's name. -/
def readProgram (c : Command) (command : Request → List String → Except Stop Request)
    (r : Request) :
    List (String × Token) → Except Stop Request
  | [] => .error (.misuse c "the following arguments are required: command")
  | [(_, .divider)] => .error (.misuse c "the following arguments are required: command")
  | (s, .divider) :: _ => .error (noSuchCommand c s)
  | (s, .word _) :: rest =>
    if s == commandName then command r (rest.map Prod.fst) else .error (noSuchCommand c s)
  | (s, .unknown _) :: rest => readProgram c command { r with leftOver := r.leftOver ++ [s] } rest
  | (_, .option o name value) :: rest => do
    let (r, took) ← r.takeOption c o name value rest
    readProgram c command r (rest.drop (if took then 1 else 0))
termination_by ts => ts.length
decreasing_by all_goals simp only [List.length_cons, List.length_drop]; omega

/-- What the arguments ask for. -/
def read (arguments : List String) : Except Stop Request := do
  let command (r : Request) (rest : List String) : Except Stop Request := do
    readCommand surveyCommand r (← surveyCommand.tokens rest)
  let r ← readProgram program command {} (← program.tokens arguments)
  if r.leftOver.isEmpty then return r
  else throw (.misuse program ("unrecognized arguments: " ++ " ".intercalate r.leftOver))

end CommandLine
end CodeSurvey
