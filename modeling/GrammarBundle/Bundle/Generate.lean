import GrammarBundle.Bundle.Module
import GrammarBundle.Bundle.Names
import GrammarBundle.Bundle.Sink
import GrammarBundle.Config.Load
import GrammarBundle.Engine.Request
import GrammarBundle.Pattern.Braces
import GrammarBundle.Pattern.Search

/-!
Generating bundles. The files that the patterns match are taken in order; each grammar file among them
is read, compiled, checked for its declaration order and written as a module, with type declarations
beside it if they are asked for. The first failure ends the run; what was written before stays.
-/

namespace GrammarBundle.Bundle

/-- Expands patterns from a base directory: the files they match, each once, at its first match. -/
def expandFrom (s : Pattern.Scope) (seen : List Text) : List Text → Except PathFault (List Text)
  | [] => .ok []
  | pattern :: rest =>
    match s.glob pattern with
    | .error fault => .error fault
    | .ok found =>
      let fresh := Pattern.freshFiles s seen found
      match expandFrom s (seen ++ fresh) rest with
      | .error fault => .error fault
      | .ok more => .ok (fresh ++ more)

def baseOf (workdir : Option Text) : Text :=
  match workdir with
  | none => "."
  | some t => if t.isEmpty then "." else t

/-- The files that patterns match below a directory, alternatives in braces expanded first. -/
def expandPatterns (disk : Disk) (workdir : Place) (patterns : List Text) (base : Option Text) :
    Except PathFault (List Text) :=
  expandFrom ⟨disk, workdir, baseOf base⟩ [] (patterns.flatMap Pattern.expandBraces)

/-- Refuses a file that has another extension. -/
def requireExtension (filename extension : Text) : Except Failure Unit :=
  if fileExtension filename = extension then .ok ()
  else .error (.wrongExtension extension (fileExtension filename))

/-- A host and the sink that a run writes to. -/
structure Session where
  host : Host
  sink : Sink

abbrev Emission (α : Type) := ExceptT Failure (StateM Session) α

namespace Emission

def ofAction {α : Type} (step : Action α) : Emission α := fun session =>
  let (result, host) := step.on session.host
  (result, { session with host })

def write (filename contents : Text) : Emission Unit := do
  let session ← get
  let sink ← ofAction (session.sink.write filename contents)
  modify fun session => { session with sink }

end Emission

/-- Writes the module of a collection; the name of its file. -/
def emitModule (grammarFile : Text) (c : Collection) (format : Format) (runtime : Text) :
    Emission Text := do
  Emission.ofAction (Action.ofExcept id (requireExtension grammarFile grammarExtension))
  Emission.write (moduleFile grammarFile) (renderModule format runtime c)
  return moduleFile grammarFile

def declarationText (grammarFile types : Text) : Text :=
  Text.join "\n" [banner (some (Path.ofText grammarFile).name), [], types, []]

/-- Writes the type declarations of a grammar file; the name of their file. -/
def emitDeclarations (grammarFile : Text) (types : Action Text) : Emission Text := do
  Emission.ofAction (Action.ofExcept id (requireExtension grammarFile grammarExtension))
  let types ← Emission.ofAction types
  Emission.write (declarationFile grammarFile) (declarationText grammarFile types)
  return declarationFile grammarFile

structure Options where
  dryRun : Bool
  workdir : Option Text
  withTypes : Bool
  esm : Bool

def sourcePath (workdir : Option Text) (file : Text) : Path :=
  match workdir.filter (!·.isEmpty) with
  | none => Path.ofText file
  | some base => (Path.ofText base).join file

def bundleGrammar (ctx : Context) (opts : Options) (file : Text) : Emission Unit := do
  let source ← Emission.ofAction (Action.readText (sourcePath opts.workdir file))
  let c ← Emission.ofAction (Engine.compile ctx source)
  Emission.ofAction (Action.ofExcept Failure.grammarOrder (c.checkOrder file))
  Emission.ofAction (Action.log ctx ⟨"debug", "bundles", "compiled",
    [("path", .str file), ("grammars", .int c.length)]⟩)
  let _ ← emitModule file c (.ofEsm opts.esm) defaultRuntime
  if opts.withTypes then
    let _ ← emitDeclarations file (Engine.generateTypes ctx c)

/-- Bundles one matched file; a file that is no grammar file is passed over. -/
def bundleFile (ctx : Context) (opts : Options) (file : Text) : Emission Unit := do
  if fileExtension file = grammarExtension then bundleGrammar ctx opts file
  else
    Emission.ofAction (Action.log ctx ⟨"debug", "bundles", "skip", [("path", .str file)]⟩)

/-- Bundles files in order, up to the first failure. -/
def bundleFiles (ctx : Context) (opts : Options) : List Text → Emission Unit
  | [] => return ()
  | file :: rest => do
    bundleFile ctx opts file
    bundleFiles ctx opts rest

/-- The sink of a run that is given none: a plan for a dry run, otherwise the working directory. -/
def defaultSink (ctx : Context) (opts : Options) : Sink :=
  if opts.dryRun then .plan [] else .under ctx (opts.workdir.filter (!·.isEmpty))

def bundlePatterns (ctx : Context) (opts : Options) (patterns : List Text) : Emission Unit := do
  let host := (← get).host
  let files ← Emission.ofAction (Action.ofExcept (Failure.ofListing [])
    (expandPatterns host.disk host.workdir patterns opts.workdir))
  bundleFiles ctx opts files

end GrammarBundle.Bundle
