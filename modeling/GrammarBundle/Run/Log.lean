import GrammarBundle.Run.Context
import GrammarBundle.Run.Host

/-!
Log events. An event that the context lets through is one line on the error output: its fixed parts and
its fields as words, or all of them as one JSON object.
-/

namespace GrammarBundle

/-- An event of a component, with named fields. -/
structure LogEvent where
  level : Text
  component : Text
  action : Text
  fields : Members

namespace LogEvent

/-- Whether a context lets events of a level through. -/
def isEnabled (ctx : Context) (level : Text) : Bool :=
  if ctx.quiet then level = "error"
  else if level = "debug" then ctx.verbose
  else true

/-- The names that fields cannot have. -/
def fixedNames : List Text := ["ctx", "level", "component", "action"]

/-- The first field with the name of a fixed part. -/
def clash? (event : LogEvent) : Option Text :=
  (event.fields.map (·.1)).find? fixedNames.contains

/-- All parts of an event; a field takes the place of a part of its name. -/
def parts (ctx : Context) (now : DateTime) (site : Site) (event : LogEvent) : Members :=
  Members.putAll event.fields
    [("ts", .str now.isoText), ("level", .str event.level), ("run_id", .str ctx.runId),
      ("component", .str event.component), ("action", .str event.action), ("file", .str site.file),
      ("line", .int site.line)]

def fieldText : Text × Json → Text
  | (name, value) => name ++ "=" ++ value.plain

/-- The line of an event, without its line feed. -/
def line (ctx : Context) (now : DateTime) (site : Site) (event : LogEvent) : Text :=
  if ctx.logJson then Json.portable (.object (parts ctx now site event)) false
  else
    let time := (Members.get? "ts" event.fields).getD (.str now.isoText)
    let words : List Text :=
      ["ts=" ++ time.plain, "level=" ++ event.level, "run_id=" ++ ctx.runId,
        "component=" ++ event.component, "action=" ++ event.action]
    Text.join " " (words ++ (Members.sorted event.fields).map fieldText)

end LogEvent

namespace Action

/-- Writes an event to the error output, if the context lets it through. -/
def log (ctx : Context) (event : LogEvent) : Action Unit := do
  match event.clash? with
  | some name => throw (.repeatedField "log_event" name)
  | none =>
    if LogEvent.isEnabled ctx event.level then
      let host ← get
      printError (event.line ctx host.now host.site)

end Action

end GrammarBundle
