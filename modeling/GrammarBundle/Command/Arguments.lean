import GrammarBundle.Command.Usage
import GrammarBundle.Text.Digits

/-!
Reading a command line. Each argument is first told apart by its looks: a flag of the form, by its full
name or by a beginning that no other flag has, a word, the divider `--`, after which everything is a
word, or a stranger that looks like a flag. The flags and words are then taken from left to right. The
first command word takes everything after it, to be read by the form of the command.

Common parsers of command lines differ in what is attached to a flag. The one assumed here takes a value
that is the divider for none, takes what follows a short flag for more short flags also behind an equals
sign, and reports a letter that names none before it takes any of the others.
-/

namespace GrammarBundle.Command

inductive Look where
  | word
  | divider
  /-- A flag, with the value that is attached to it. -/
  | flag (flag : Flag) (value : Option Text)
  /-- It looks like a flag, but the form has none of this name. -/
  | stranger
  deriving DecidableEq, Repr

structure Argument where
  text : Text
  look : Look
  deriving DecidableEq, Repr

/-- How reading a command line ends early: with a text to show, or with a fault. -/
inductive Ending where
  | shown (text : Text)
  | misused (form : Form) (fault : UsageFault)
  deriving DecidableEq, Repr

/-- The divider between flags and words. -/
def divider : Text := "--"

namespace Form

/-- The names of the flags of a form, each with its flag. -/
def namedFlags (form : Form) : List (Text × Flag) :=
  form.flags.flatMap fun flag => flag.names.map fun name => (name, flag)

def flagNamed? (form : Form) (name : Text) : Option Flag :=
  (form.namedFlags.find? fun (n, _) => n = name).map (·.2)

/-- A text up to the first equals sign, and the value after it. -/
def splitValue (t : Text) : Text × Option Text :=
  match Text.cut? "=" t with
  | some (name, value) => (name, some value)
  | none => (t, none)

/-- The flags that an argument may abbreviate, with their full names: those that continue it, if it
starts with two hyphens, otherwise the short flag that it starts with. -/
def candidates (form : Form) (t : Text) : List (Text × Look) :=
  if divider.isPrefixOf t then
    let (stem, value) := splitValue t
    (form.namedFlags.filter fun (name, _) => stem.isPrefixOf name).map fun (name, flag) =>
      (name, .flag flag value)
  else
    (form.namedFlags.filter fun (name, _) => name = t.take 2).map fun (name, flag) =>
      (name, .flag flag (some (t.drop 2)))

/-- Decimal digits up to the end, or up to a line feed at the end. -/
def isDigits (t : Text) : Bool :=
  let digits := if t.getLast? = some (.char '\n') then t.dropLast else t
  !digits.isEmpty && digits.all fun p => p.decimal?.isSome

/-- A negative number, whole or with a point, is a word. -/
def isNegativeNumber (t : Text) : Bool :=
  match t with
  | .char '-' :: rest =>
    match Text.cut? "." rest with
    | none => isDigits rest
    | some (whole, fraction) => (whole.all fun p => p.decimal?.isSome) && isDigits fraction
  | _ => false

/-- What an argument that starts with a hyphen and names no flag in full looks like. -/
def lookOfUnnamed (form : Form) (t : Text) : Except UsageFault Look :=
  match form.candidates t with
  | [(_, look)] => .ok look
  | [] => .ok (if isNegativeNumber t || t.elem (.char ' ') then .word else .stranger)
  | several => .error (.ambiguous t (several.map (·.1)))

/-- What an argument before the divider looks like. -/
def lookOf (form : Form) (t : Text) : Except UsageFault Look :=
  if t.head? ≠ some (.char '-') then .ok .word
  else
    match form.flagNamed? t with
    | some flag => .ok (.flag flag none)
    | none =>
      if t.length = 1 then .ok .word
      else
        match splitValue t with
        | (_, none) => form.lookOfUnnamed t
        | (name, some value) =>
          match form.flagNamed? name with
          | some flag => .ok (.flag flag (some value))
          | none => form.lookOfUnnamed t

def looks (form : Form) : List Text → Except UsageFault (List Argument)
  | [] => .ok []
  | t :: rest =>
    if t = divider then .ok (⟨t, .divider⟩ :: rest.map fun word => ⟨word, .word⟩)
    else
      match form.lookOf t with
      | .error fault => .error fault
      | .ok look => (⟨t, look⟩ :: ·) <$> form.looks rest

end Form

/-- What the flags of a command line say. A flag whose attached value is the divider has no value. -/
structure Switches where
  json : Bool
  format : Option Text
  runId : Option Text
  workdir : Option Text
  config : Option Text
  dryRun : Bool
  logJson : Bool
  verbose : Bool
  quiet : Bool
  withTypes : Bool
  esm : Bool
  deriving DecidableEq, Repr

namespace Switches

def unset : Switches :=
  ⟨false, none, none, none, none, false, false, false, false, false, false⟩

def formats : List Text := ["text", "json"]

def take (form : Form) (s : Switches) (value : Option Text) : Flag → Except Ending Switches
  | .help => .error (.shown form.help)
  | .version => .error (.shown versionLine)
  | .json => .ok { s with json := true }
  | .format =>
    match value with
    | none => .ok { s with format := none }
    | some t =>
      if formats.contains t then .ok { s with format := some t }
      else .error (.misused form (.badChoice Flag.format.title t formats))
  | .runId => .ok { s with runId := value }
  | .workdir => .ok { s with workdir := value }
  | .config => .ok { s with config := value }
  | .dryRun => .ok { s with dryRun := true }
  | .logJson => .ok { s with logJson := true }
  | .verbose =>
    if s.quiet then .error (.misused form (.excluded .verbose .quiet))
    else .ok { s with verbose := true }
  | .quiet =>
    if s.verbose then .error (.misused form (.excluded .quiet .verbose))
    else .ok { s with quiet := true }
  | .withTypes => .ok { s with withTypes := true }
  | .esm => .ok { s with esm := true }

/-- The flags that stand together behind one hyphen, given the first of them and the letters after
it. -/
def cluster (form : Form) (flag : Flag) : Text → Except UsageFault (List Flag)
  | [] => .ok [flag]
  | letter :: rest =>
    match form.flagNamed? [.char '-', letter] with
    | none => .error (.unusedValue flag (letter :: rest))
    | some next => (flag :: ·) <$> cluster form next rest

def takeAll (form : Form) (s : Switches) : List Flag → Except Ending Switches
  | [] => .ok s
  | flag :: rest =>
    match s.take form none flag with
    | .error ending => .error ending
    | .ok s => s.takeAll form rest

/-- Whether an argument gives a flag by its short name. -/
def isShort (t : Text) : Bool := !divider.isPrefixOf t

/-- The switches with a flag that a value is attached to. What is attached to a short flag are more
short flags. -/
def takeAttached (form : Form) (s : Switches) (given : Text) (flag : Flag) (value : Text) :
    Except Ending Switches :=
  if flag.takesValue then s.take form (if value = divider then none else some value) flag
  else if isShort given ∧ value ≠ [] then
    match cluster form flag value with
    | .error fault => .error (.misused form fault)
    | .ok flags => s.takeAll form flags
  else .error (.misused form (.unusedValue flag value))

end Switches

/-- How far the words of a form are taken: not yet, just now, or all of them. -/
inductive Phase where
  | before
  | during
  | after
  deriving DecidableEq, Repr

/-- A command line as far as it is taken. -/
structure Taken where
  switches : Switches
  words : List Text
  phase : Phase
  /-- What nothing takes. -/
  extras : List Text
  deriving DecidableEq, Repr

namespace Taken

def nothing : Taken := ⟨.unset, [], .before, []⟩

/-- A flag ends the words that stand together. -/
def interrupted (taken : Taken) : Taken :=
  if taken.phase = .during then { taken with phase := .after } else taken

def leave (taken : Taken) (t : Text) : Taken := { taken with extras := taken.extras ++ [t] }

/-- One more word. Patterns stand together, and a divider with no word after it starts none. -/
def offer (taken : Taken) (form : Form) (t : Text) (startsNone : Bool) : Taken :=
  match form.intake, taken.phase with
  | .patterns, .before =>
    if startsNone then taken.leave t else { taken with words := [t], phase := .during }
  | .patterns, .during => { taken with words := taken.words ++ [t] }
  | _, _ => taken.leave t

/-- The switches that are changed, and words that are interrupted. -/
def switching (taken : Taken) (result : Except Ending Switches) : Except Ending Taken :=
  match result with
  | .error ending => .error ending
  | .ok switches => .ok { taken.interrupted with switches }

end Taken

/-- Takes arguments from left to right. -/
def takeArguments (form : Form) (taken : Taken) : List Argument → Except Ending Taken
  | [] => .ok taken
  | ⟨t, .stranger⟩ :: rest => takeArguments form (taken.interrupted.leave t) rest
  | ⟨given, .flag flag (some value)⟩ :: rest => do
    let taken ← taken.switching (taken.switches.takeAttached form given flag value)
    takeArguments form taken rest
  | ⟨_, .flag flag none⟩ :: rest =>
    if flag.takesValue then
      match rest with
      | ⟨value, .word⟩ :: rest => do
        let taken ← taken.switching (taken.switches.take form (some value) flag)
        takeArguments form taken rest
      | _ => .error (.misused form (.missingValue flag))
    else do
      let taken ← taken.switching (taken.switches.take form none flag)
      takeArguments form taken rest
  | ⟨t, look⟩ :: rest =>
    let startsNone := look = .divider && rest.isEmpty
    if form.intake = .command && !startsNone then
      .ok { taken with words := t :: rest.map Argument.text }
    else takeArguments form (taken.offer form t startsNone) rest

def takeForm (form : Form) (arguments : List Text) : Except Ending Taken :=
  match form.looks arguments with
  | .error fault => .error (.misused form fault)
  | .ok arguments => takeArguments form .nothing arguments

/-- The command that a command line chooses, with what its own arguments say. -/
inductive Chosen where
  | generateBundles (patterns : List Text) (withTypes esm : Bool)
  | version (json : Bool)
  | doctor (json : Bool)
  deriving DecidableEq, Repr

namespace Chosen

def name : Chosen → Text
  | .generateBundles _ _ _ => "generateBundles"
  | .version _ => "version"
  | .doctor _ => "doctor"

/-- The command that a form makes of what was taken. -/
def ofTaken (form : Form) (taken : Taken) : Except Ending Chosen :=
  match form with
  | .version => .ok (.version taken.switches.json)
  | .doctor => .ok (.doctor taken.switches.json)
  | form =>
    if taken.words = [] then .error (.misused form (.missingWords form.wordsTitle))
    else
      .ok (.generateBundles (taken.words.erase divider) taken.switches.withTypes
        taken.switches.esm)

end Chosen

end GrammarBundle.Command

namespace GrammarBundle

structure Invocation where
  switches : Command.Switches
  command : Command.Chosen
  deriving DecidableEq, Repr

namespace Invocation

/-- Reads the words of the program: a command and its arguments. -/
def readCommand (taken : Command.Taken) : Except Command.Ending Invocation :=
  match taken.words with
  | [] => .error (.misused .program (.missingWords Command.Form.program.wordsTitle))
  | name :: arguments =>
    match Command.Form.ofCommand? name with
    | none =>
      .error (.misused .program
        (.badChoice Command.Form.program.wordsTitle name Command.Form.commandNames))
    | some form => do
      let inner ← Command.takeForm form arguments
      let command ← Command.Chosen.ofTaken form inner
      let extras := taken.extras ++ inner.extras
      if extras = [] then return ⟨taken.switches, command⟩
      else throw (.misused .program (.unrecognized extras))

def read (arguments : List Text) : Except Command.Ending Invocation := do
  readCommand (← Command.takeForm .program arguments)

end Invocation

end GrammarBundle
