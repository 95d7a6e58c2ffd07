import GrammarBundle.Config.Schema
import GrammarBundle.Files.Fault
import GrammarBundle.Grammar.Order
import GrammarBundle.Json.Writer
import GrammarBundle.Yaml.Fault

/-!
Why a run fails. A cause that the program itself reports has a kind and an exit code of its own; a
refusal of the system and any other fault share one code each. Every cause has one message.
-/

namespace GrammarBundle

inductive ExitCode where
  | success
  | usage
  | config
  | validation
  | compile
  | io
  | prerequisite
  | timeout
  | internal
  deriving DecidableEq, Repr

def ExitCode.number : ExitCode → Nat
  | .success => 0
  | .usage => 2
  | .config => 3
  | .validation => 4
  | .compile => 5
  | .io => 6
  | .prerequisite => 7
  | .timeout => 8
  | .internal => 99

/-- Why a configuration document cannot be read as one. -/
inductive DocumentFault where
  | json (fault : Json.ReadFault)
  | malformed
  deriving DecidableEq, Repr

def DocumentFault.message : DocumentFault → Text
  | .json fault => fault.message
  | .malformed => Yaml.malformedDetail

inductive Failure where
  /-- A file has another extension than it must have. -/
  | wrongExtension (expected actual : Text)
  /-- A grammar extends one that is not declared before it. -/
  | grammarOrder (fault : OrderFault)
  /-- The configuration document that was asked for is not there. -/
  | configMissing (path : Text)
  | configUnreadable (path : Text) (fault : DocumentFault)
  | configInvalid (path : Option Text) (violation : Config.Violation)
  /-- The directory in which programs run is not there. -/
  | workdirMissing (path : Text)
  /-- The node program is not there. -/
  | nodeMissing (node : Text)
  /-- The engine was stopped because its time was over; the note is its last line. -/
  | timedOut (operation note : Text)
  /-- The engine's answer cannot be read. -/
  | engineFailed (operation detail : Text)
  /-- The engine refused the grammar. -/
  | notCompiled (message : Text)
  /-- The system refused an operation. -/
  | system (fault : SystemFault)
  /-- The call of a program failed by itself, with a message. -/
  | callFailed (message : Text)
  /-- The output refused a text, with a message. -/
  | unprinted (message : Text)
  /-- A path holds a zero character; a listing words this in its own way. -/
  | zeroCharacter (listing : Bool)
  | unencodable (fault : Utf8.EncodeFault)
  | undecodable (fault : Utf8.DecodeFault)
  | json (fault : Json.ReadFault)
  | unprintable (fault : Json.PrintFault)
  | scalar (fault : Yaml.ScalarFault)
  | shape (fault : ShapeFault)
  /-- A field has the name of a fixed part of what its owner makes. -/
  | repeatedField (owner name : Text)

namespace Failure

/-- The exit code and kind of a cause that the program itself reports. -/
def report? : Failure → Option (ExitCode × Text)
  | .wrongExtension _ _ => some (.validation, "wrong_extension")
  | .grammarOrder _ => some (.validation, "grammar_order")
  | .configMissing _ => some (.config, "invalid_config")
  | .configUnreadable _ _ => some (.config, "invalid_config")
  | .configInvalid _ _ => some (.config, "invalid_config")
  | .workdirMissing _ => some (.io, "missing_cwd")
  | .nodeMissing _ => some (.prerequisite, "missing_tool")
  | .timedOut _ _ => some (.timeout, "timeout")
  | .engineFailed _ _ => some (.prerequisite, "bridge_error")
  | .notCompiled _ => some (.compile, "compile_error")
  | _ => none

def message : Failure → Text
  | .wrongExtension expected actual =>
    "Wrong file extension: expected '" ++ expected ++ "', got '" ++ actual ++ "'"
  | .grammarOrder fault => fault.message
  | .configMissing path => "config file not found: " ++ path
  | .configUnreadable path fault => "unable to parse config " ++ path ++ ": " ++ fault.message
  | .configInvalid path violation =>
    let place : Text :=
      match path with
      | none => []
      | some p => " " ++ p
    "invalid config" ++ place ++ ": " ++ violation.message
  | .workdirMissing path => "working directory does not exist: " ++ path
  | .nodeMissing node =>
    "node executable not found: " ++ node ++
      " (set `node` in ohm-bundler config or OHM_BUNDLER_NODE)"
  | .timedOut operation note => "ohm bridge `" ++ operation ++ "` " ++ note
  | .engineFailed operation detail => "ohm bridge `" ++ operation ++ "` failed: " ++ detail
  | .notCompiled message => message
  | .system fault => fault.message
  | .callFailed message => message
  | .unprinted message => message
  | .zeroCharacter false => "embedded null byte"
  | .zeroCharacter true => "scandir: embedded null character in path"
  | .unencodable fault => fault.message
  | .undecodable fault => fault.message
  | .json fault => fault.message
  | .unprintable fault => fault.message
  | .scalar fault => fault.message
  | .shape fault => fault.message
  | .repeatedField owner name =>
    owner ++ "() got multiple values for argument '" ++ name ++ "'"

def isSystem : Failure → Bool
  | .system _ => true
  | _ => false

def ofPath (path : Text) : PathFault → Failure
  | .system reason => .system ⟨reason, path⟩
  | .zeroCharacter => .zeroCharacter false
  | .unencodable fault => .unencodable fault

def ofListing (path : Text) : PathFault → Failure
  | .zeroCharacter => .zeroCharacter true
  | fault => ofPath path fault

end Failure

end GrammarBundle
