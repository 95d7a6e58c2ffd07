import GrammarBundle.Config.Settings

/-!
The context of a run: what it was started with, and the configuration in force.
-/

namespace GrammarBundle

structure Context where
  runId : Text
  workdir : Path
  dryRun : Bool
  format : Text
  verbose : Bool
  quiet : Bool
  logJson : Bool
  config : Config
  deriving DecidableEq, Repr

end GrammarBundle
