import GrammarBundle.Config.Schema
import GrammarBundle.Files.Path

/-!
A configuration: the settings in force for a run. Each comes from the environment, else from the
document, else it is the default.
-/

namespace GrammarBundle

/-- The settings in force, and the document that they come from. -/
structure Config where
  node : Text
  runtime : Text
  typesModule : Text
  timeout : Numeral
  withTypes : Bool
  esm : Bool
  source : Option Path
  deriving DecidableEq, Repr

namespace Config

def standard : Config where
  node := "node"
  runtime := "ohm-js"
  typesModule := "@ohm-js/cli/src/helpers/generateTypes.js"
  timeout := .whole 60
  withTypes := false
  esm := false
  source := none

/-- The defaults with a document's settings over them. -/
def ofSettings (source : Path) (s : Settings) : Config where
  node := s.node.getD standard.node
  runtime := s.runtime.getD standard.runtime
  typesModule := s.typesModule.getD standard.typesModule
  timeout := s.timeout.getD standard.timeout
  withTypes := s.withTypes.getD standard.withTypes
  esm := s.esm.getD standard.esm
  source := some source

/-- A variable's value over a setting; an empty value counts as none. -/
def overridden (value : Option Text) (setting : Text) : Text :=
  match value with
  | none => setting
  | some t => if t.isEmpty then setting else t

def nodeVariable : Text := "OHM_BUNDLER_NODE"

def runtimeVariable : Text := "OHM_BUNDLER_OHM_MODULE"

def withEnvironment (c : Config) (look : Text → Option Text) : Config :=
  { c with
    node := overridden (look nodeVariable) c.node
    runtime := overridden (look runtimeVariable) c.runtime }

end Config

end GrammarBundle
