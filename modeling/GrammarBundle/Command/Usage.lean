import GrammarBundle.Command.Report
import GrammarBundle.Text.Quoted

/-!
The forms that a command line can have. The program itself has one form and each of its commands
another: the flags that it knows, the words that it takes, and the texts that explain it. A command line
that breaks its form is answered with the usage of the form and the fault.
-/

namespace GrammarBundle.Command

inductive Flag where
  | help
  | version
  | json
  | format
  | runId
  | workdir
  | config
  | dryRun
  | logJson
  | verbose
  | quiet
  | withTypes
  | esm
  deriving DecidableEq, Repr

namespace Flag

def names : Flag → List Text
  | .help => ["-h", "--help"]
  | .version => ["--version"]
  | .json => ["--json"]
  | .format => ["--format"]
  | .runId => ["--run-id"]
  | .workdir => ["--cwd"]
  | .config => ["--config"]
  | .dryRun => ["--dry-run"]
  | .logJson => ["--log-json"]
  | .verbose => ["--verbose"]
  | .quiet => ["--quiet"]
  | .withTypes => ["-t", "--withTypes"]
  | .esm => ["-e", "--esm"]

def takesValue : Flag → Bool
  | .format => true
  | .runId => true
  | .workdir => true
  | .config => true
  | _ => false

/-- A flag as faults name it. -/
def title (f : Flag) : Text := Text.join "/" f.names

end Flag

/-- The words that a form takes besides its flags. -/
inductive Intake where
  /-- No words. -/
  | nothing
  /-- One or more patterns, which stand together. -/
  | patterns
  /-- A command with everything after it. -/
  | command
  deriving DecidableEq, Repr

/-- The forms: that of the program and those of its commands. -/
inductive Form where
  | program
  | generateBundles
  | version
  | doctor
  deriving DecidableEq, Repr

namespace Form

/-- The flags of a form, in the order in which its texts show them. -/
def flags : Form → List Flag
  | .program =>
    [.help, .version, .json, .format, .runId, .workdir, .config, .dryRun, .logJson, .verbose, .quiet]
  | .generateBundles => [.help, .withTypes, .esm]
  | .version => [.help, .json]
  | .doctor => [.help, .json]

def intake : Form → Intake
  | .program => .command
  | .generateBundles => .patterns
  | .version => .nothing
  | .doctor => .nothing

def title : Form → Text
  | .program => "ohm-bundler"
  | .generateBundles => "ohm-bundler generateBundles"
  | .version => "ohm-bundler version"
  | .doctor => "ohm-bundler doctor"

def wordsTitle : Form → Text
  | .program => "cmd"
  | _ => "patterns"

def usage : Form → List String
  | .program =>
    ["usage: ohm-bundler [-h] [--version] [--json] [--format \x7btext,json\x7d]",
      "                   [--run-id RUN_ID] [--cwd CWD] [--config CONFIG] [--dry-run]",
      "                   [--log-json] [--verbose | --quiet]",
      "                   \x7bgenerateBundles,generate-bundles,version,doctor\x7d ..."]
  | .generateBundles =>
    ["usage: ohm-bundler generateBundles [-h] [-t] [-e] patterns [patterns ...]"]
  | .version => ["usage: ohm-bundler version [-h] [--json]"]
  | .doctor => ["usage: ohm-bundler doctor [-h] [--json]"]

/-- The lines that explain the flags of a command that only chooses how it prints. -/
def printingFlags : List String :=
  ["options:",
    "  -h, --help  show this help message and exit",
    "  --json      emit JSON output"]

/-- The lines that explain the words and flags of a form. -/
def explanation : Form → List String
  | .program =>
    ["positional arguments:",
      "  \x7bgenerateBundles,generate-bundles,version,doctor\x7d",
      "    generateBundles (generate-bundles)",
      "                        generate standalone modules (aka \"bundles\") from .ohm",
      "                        files",
      "    version             print version",
      "    doctor              show node and ohm-js runtime diagnostics",
      "",
      "options:",
      "  -h, --help            show this help message and exit",
      "  --version             show program's version number and exit",
      "  --json                emit JSON output",
      "  --format \x7btext,json\x7d  output format",
      "  --run-id RUN_ID       run identifier for log events",
      "  --cwd CWD             working directory for pattern matching and output",
      "                        files",
      "  --config CONFIG       path to an ohm-bundler config file",
      "  --dry-run             print the files that would be written instead of",
      "                        writing",
      "  --log-json            emit log events as JSON lines on stderr",
      "  --verbose             enable verbose diagnostics",
      "  --quiet               only emit errors"]
  | .generateBundles =>
    ["positional arguments:",
      "  patterns         glob patterns matched against the working directory",
      "",
      "options:",
      "  -h, --help       show this help message and exit",
      "  -t, --withTypes  generate a corresponding .d.ts file for TypeScript",
      "  -e, --esm        generate bundle in ES module format [default is CommonJS]"]
  | .version => printingFlags
  | .doctor => printingFlags

def linesText (lines : List String) : Text := Text.join "\n" (lines.map Text.ofString)

def help (form : Form) : Text := linesText (form.usage ++ "" :: form.explanation)

/-- The form of a command; bundle generation has a second name. -/
def ofCommand? (name : Text) : Option Form :=
  if name = "generateBundles" ∨ name = "generate-bundles" then some .generateBundles
  else if name = "version" then some .version
  else if name = "doctor" then some .doctor
  else none

def commandNames : List Text := ["generateBundles", "generate-bundles", "version", "doctor"]

end Form

def versionLine : Text := "ohm-bundler " ++ version

/-- How a command line breaks its form. -/
inductive UsageFault where
  /-- An abbreviated flag could be several flags. -/
  | ambiguous (given : Text) (names : List Text)
  /-- A flag without a value is given one. -/
  | unusedValue (flag : Flag) (value : Text)
  | missingValue (flag : Flag)
  /-- A flag or word that has choices is none of them. -/
  | badChoice (subject value : Text) (choices : List Text)
  /-- A flag stands beside one that excludes it. -/
  | excluded (flag other : Flag)
  | missingWords (title : Text)
  /-- Arguments that nothing takes. -/
  | unrecognized (arguments : List Text)
  deriving DecidableEq, Repr

namespace UsageFault

def about (subject fault : Text) : Text := "argument " ++ subject ++ ": " ++ fault

def message : UsageFault → Text
  | .ambiguous given names =>
    "ambiguous option: " ++ given ++ " could match " ++ Text.join ", " names
  | .unusedValue flag value => about flag.title ("ignored explicit argument " ++ value.quoted)
  | .missingValue flag => about flag.title "expected one argument"
  | .badChoice subject value choices =>
    about subject ("invalid choice: " ++ value.quoted ++ " (choose from " ++
      Text.join ", " (choices.map Text.quoted) ++ ")")
  | .excluded flag other => about flag.title ("not allowed with argument " ++ other.title)
  | .missingWords title => "the following arguments are required: " ++ title
  | .unrecognized arguments => "unrecognized arguments: " ++ Text.join " " arguments

end UsageFault

/-- The answer to a command line that breaks a form. -/
def Form.complaint (form : Form) (fault : UsageFault) : Text :=
  linesText form.usage ++ "\n" ++ form.title ++ ": error: " ++ fault.message

end GrammarBundle.Command
