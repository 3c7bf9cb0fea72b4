/-
# The commands and their help

There is one program with one command, which surveys a directory. Each has options and a help text;
the first lines of the text, which say how it is used, also go before a complaint.
-/

namespace CodeSurvey
namespace CommandLine

/-- What an option is for. -/
inductive Key
  | help
  | verbose
  | config
  | output
  | logFile
  deriving DecidableEq, Repr

/-- An option: its names, what it is for, and whether it takes a value. -/
structure OptionForm where
  names : List String
  key : Key
  takesValue : Bool := false

/-- The names of an option in a complaint. -/
def OptionForm.label (o : OptionForm) : String := "/".intercalate o.names

/-- A command: its full name, its options, how it is used, and what else its help says. -/
structure Command where
  name : String
  options : List OptionForm
  usage : String
  explanation : String

/-- The help of a command. -/
def Command.help (c : Command) : String := c.usage ++ "\n" ++ c.explanation

/-- The option that shows the help. -/
def helpOption : OptionForm := ⟨["-h", "--help"], .help, false⟩

/-- The option for more notes. -/
def verboseOption : OptionForm := ⟨["-v", "--verbose"], .verbose, false⟩

/-- The name of the command that surveys. -/
def commandName : String := "analyze"

/-- The program. -/
def program : Command where
  name := "repolens"
  options := [helpOption, verboseOption]
  usage := "usage: repolens [-h] [-v] \x7banalyze\x7d ...\n"
  explanation :=
    "Derive dependency, quality and coupling signals from a repository.\n\n" ++
    "positional arguments:\n" ++
    "  \x7banalyze\x7d\n" ++
    "    analyze      Analyze a local checkout and emit the result as JSON.\n\n" ++
    "options:\n" ++
    "  -h, --help     show this help message and exit\n" ++
    "  -v, --verbose  Increase log verbosity for troubleshooting.\n"

/-- The command that surveys. -/
def surveyCommand : Command where
  name := "repolens analyze"
  options :=
    [helpOption, verboseOption, ⟨["--config"], .config, true⟩, ⟨["--output", "-o"], .output, true⟩,
      ⟨["--log-file"], .logFile, true⟩]
  usage :=
    "usage: repolens analyze [-h] [-v] [--config CONFIG] [--output OUTPUT]\n" ++
    "                        [--log-file LOG_FILE]\n" ++
    "                        [path]\n"
  explanation :=
    "positional arguments:\n" ++
    "  path                  Path to the repository root (defaults to current\n" ++
    "                        directory).\n\n" ++
    "options:\n" ++
    "  -h, --help            show this help message and exit\n" ++
    "  -v, --verbose         Increase log verbosity for troubleshooting.\n" ++
    "  --config CONFIG       Configuration file to use instead of\n" ++
    "                        <path>/.repolens.yml.\n" ++
    "  --output OUTPUT, -o OUTPUT\n" ++
    "                        Write the JSON result to this file instead of stdout.\n" ++
    "  --log-file LOG_FILE   Also write log output to this file.\n"

end CommandLine
end CodeSurvey
