import GrammarBundle.Run.Log

/-!
Sinks for generated files: a plan, which only remembers what would be written, and a directory, into
which files are written at once, with an event for each.
-/

namespace GrammarBundle.Bundle

/-- File names with contents, in the order in which the names were first written. -/
abbrev Plan := List (Text × Text)

/-- A plan with one more file; a known name keeps its place and takes the new contents. -/
def Plan.put (name contents : Text) : Plan → Plan
  | [] => [(name, contents)]
  | (n, old) :: rest =>
    if n = name then (n, contents) :: rest else (n, old) :: Plan.put name contents rest

/-- Where generated files go, with what has gone there. -/
inductive Sink where
  | plan (files : Plan)
  | directory (ctx : Context) (base : Path) (written : List Path)

namespace Sink

/-- A sink that writes below a directory, or where the program runs if none is given. -/
def under (ctx : Context) (base : Option Text) : Sink :=
  .directory ctx ((base.map Path.ofText).getD .here) []

def files : Sink → Plan
  | .plan files => files
  | .directory _ _ _ => []

def written : Sink → List Path
  | .plan _ => []
  | .directory _ _ paths => paths

/-- Writes a file; the sink that remembers it. -/
def write (filename contents : Text) : Sink → Action Sink
  | .plan files => return .plan (Plan.put filename contents files)
  | .directory ctx base written => do
    let path := base.join filename
    Action.log ctx ⟨"info", "bundles", "write", [("path", .str path.toText)]⟩
    Action.writeText path contents
    return .directory ctx base (written ++ [path])

end Sink

end GrammarBundle.Bundle
