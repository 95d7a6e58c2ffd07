import GrammarBundle.Proofs.Json.Canonical
import GrammarBundle.Proofs.Number.Shown
import GrammarBundle.Proofs.Run.Actions
import GrammarBundle.Proofs.Text.Pieces

/-!
Events on the error output. Each event that a context lets through is written with a line feed behind it, in
order, and no other event leaves a trace. In JSON each of them is one line, which is read back as the event. As
words an event is one line just where none of its texts has a line feed, for words are written as they are.
-/

namespace GrammarBundle

namespace DateTime

theorem shown_padded (width n : Nat) : (Text.zeroPadded width (Text.ofNat n)).Shown :=
  (Text.shown_repeated _ rfl).append (Text.shown_ofNat n)

theorem shown_offsetText (seconds : Int) : (offsetText seconds).Shown := by
  have sign : Text.Shown [.char (if seconds < 0 then '-' else '+')] := by
    split <;> decide
  have colon : Text.Shown ":" := by decide
  exact ((sign.append (shown_padded 2 _)).append colon).append (shown_padded 2 _) |>.append
    ((colon.append (shown_padded 2 _)).onlyIf _)

theorem shown_isoText (t : DateTime) : t.isoText.Shown := by
  have dash : Text.Shown "-" := by decide
  have colon : Text.Shown ":" := by decide
  have point : Text.Shown "." := by decide
  have mark : Text.Shown "T" := by decide
  have date : t.date.isoText.Shown :=
    ((((shown_padded 4 _).append dash).append (shown_padded 2 _)).append dash).append (shown_padded 2 _)
  have clock : t.clockText.Shown :=
    ((((shown_padded 2 _).append colon).append (shown_padded 2 _)).append colon).append
      (shown_padded 2 _) |>.append ((point.append (shown_padded 6 _)).onlyIf _)
  have zone : Text.Shown ((t.offset.map offsetText).getD []) := by
    cases t.offset with
    | none => exact fun p member => absurd member List.not_mem_nil
    | some seconds => exact shown_offsetText seconds
  exact ((date.append mark).append clock).append zone

end DateTime

/-- The end of a line. -/
def lineFeed : CodePoint := .char '\n'

theorem Text.Shown.no_feed {t : Text} (shown : t.Shown) : lineFeed ∉ t := by
  intro member
  cases shown lineFeed member

/-- A call that logs an event: when it is made, and where. -/
structure LogCall where
  now : DateTime
  site : Site
  event : LogEvent

namespace LogCall

def make (ctx : Context) (call : LogCall) : Action Unit := do
  modify fun host => { host with now := call.now, site := call.site }
  Action.log ctx call.event

def makeAll (ctx : Context) : List LogCall → Action Unit
  | [] => return ()
  | call :: rest => do
    call.make ctx
    makeAll ctx rest

/-- What the value of a field can be: a text, or a whole number that is not too long to be printed. -/
inductive Field : Json → Prop
  | text (t : Text) : Field (.str t)
  | whole {n : Int} : (Json.int n).isPrintable = true → Field (.int n)

/-- A call as a program can make it. No field has the name of another one or of an argument. -/
structure Proper (call : LogCall) : Prop where
  clear : call.event.clash? = none
  distinct : (call.event.fields.map (·.1)).Nodup
  fields : ∀ field ∈ call.event.fields, Field field.2
  line : (Json.int call.site.line).isPrintable = true

/-- The levels whose events a context lets through. -/
inductive Heard (ctx : Context) : Text → Prop
  | error : Heard ctx "error"
  | loud {level : Text} : ctx.quiet = false → level ≠ "debug" → Heard ctx level
  | debug : ctx.quiet = false → ctx.verbose = true → Heard ctx "debug"

/-- The calls whose events a context lets through. -/
def heard (ctx : Context) (calls : List LogCall) : List LogCall :=
  calls.filter fun call => LogEvent.isEnabled ctx call.event.level

/-- The line of a call's event, without its line feed. -/
def line (ctx : Context) (call : LogCall) : Text := call.event.line ctx call.now call.site

def parts (ctx : Context) (call : LogCall) : Members := call.event.parts ctx call.now call.site

/-- What is told of every event. -/
def fixedParts (ctx : Context) (call : LogCall) : Members :=
  [("ts", .str call.now.isoText), ("level", .str call.event.level), ("run_id", .str ctx.runId),
    ("component", .str call.event.component), ("action", .str call.event.action),
    ("file", .str call.site.file), ("line", .int call.site.line)]

/-- What is written for some calls: a line for each event that is let through. -/
def written (ctx : Context) (calls : List LogCall) : Text :=
  ((heard ctx calls).map (line ctx)).flatMap (· ++ [lineFeed])

/-- An event none of whose texts has a line feed. -/
structure Unbroken (ctx : Context) (event : LogEvent) : Prop where
  runId : lineFeed ∉ ctx.runId
  level : lineFeed ∉ event.level
  component : lineFeed ∉ event.component
  action : lineFeed ∉ event.action
  name : ∀ field ∈ event.fields, lineFeed ∉ field.1
  text : ∀ field ∈ event.fields, ∀ t, field.2 = .str t → lineFeed ∉ t

/-- A call in whose texts no high surrogate stands before a low one. -/
def Unpaired (ctx : Context) (call : LogCall) : Prop :=
  ∀ part ∈ call.parts ctx, part.1.Unpaired ∧ ∀ t, part.2 = .str t → t.Unpaired

variable {ctx : Context} {call : LogCall} {calls : List LogCall}

theorem isEnabled_iff (level : Text) : LogEvent.isEnabled ctx level = true ↔ Heard ctx level := by
  unfold LogEvent.isEnabled
  constructor
  · intro enabled
    split at enabled
    · rw [decide_eq_true_eq] at enabled
      subst enabled
      exact .error
    next loud =>
      have loud : ctx.quiet = false := by simpa using loud
      split at enabled
      next debug =>
        subst debug
        exact .debug loud enabled
      next other => exact .loud loud other
  · intro heard
    cases heard with
    | error => split <;> rfl
    | loud loud other => simp [loud, other]
    | debug loud verbose => simp [loud, verbose]

theorem mem_heard : call ∈ heard ctx calls ↔ call ∈ calls ∧ Heard ctx call.event.level := by
  rw [heard, List.mem_filter, isEnabled_iff]

theorem written_cons : written ctx (call :: calls) =
    (if LogEvent.isEnabled ctx call.event.level then call.line ctx ++ [lineFeed] else []) ++
      written ctx calls := by
  unfold written heard
  rw [List.filter_cons]
  split
  · rw [List.map_cons, List.flatMap_cons]
  · rfl

/-- One call adds its line to the error output, if its event is let through, and changes nothing else. -/
theorem on_make (clear : call.event.clash? = none) (host : Host) :
    (call.make ctx).on host = (.ok (),
      { host with
        now := call.now
        site := call.site
        errors := host.errors ++
          if LogEvent.isEnabled ctx call.event.level then call.line ctx ++ [lineFeed] else [] }) := by
  change (Action.log ctx call.event).on { host with now := call.now, site := call.site } = _
  unfold Action.log
  rw [clear]
  dsimp only
  split
  · rw [← List.append_assoc]
    rfl
  · rw [List.append_nil]
    rfl

theorem on_makeAll (ctx : Context) (clear : ∀ call ∈ calls, call.event.clash? = none) (host : Host) :
    ∃ now site, (makeAll ctx calls).on host =
      (.ok (), { host with now, site, errors := host.errors ++ written ctx calls }) := by
  induction calls generalizing host with
  | nil =>
    refine ⟨host.now, host.site, ?_⟩
    change (Except.ok (), host) = (Except.ok (), { host with errors := host.errors ++ [] })
    rw [List.append_nil]
  | cons call calls ih =>
    have later (host : Host) := ih (fun other member => clear other (List.mem_cons_of_mem call member)) host
    unfold makeAll
    rw [Action.on_bind, on_make (clear call List.mem_cons_self)]
    obtain ⟨now, site, made⟩ := later _
    refine ⟨now, site, ?_⟩
    dsimp only
    rw [made, written_cons, ← List.append_assoc]

section json

theorem parts_field (ctx : Context) (proper : call.Proper) : ∀ part ∈ call.parts ctx, Field part.2 := by
  intro part member
  rcases Members.mem_putAll member with field | fixed
  · exact proper.fields part field
  · simp only [List.mem_cons, List.not_mem_nil, or_false] at fixed
    rcases fixed with rfl | rfl | rfl | rfl | rfl | rfl | rfl
    case inr.inr.inr.inr.inr.inr => exact .whole proper.line
    all_goals exact .text _

theorem Field.readable {v : Json} (field : Field v) : v.Readable := by
  cases field with
  | text t => trivial
  | whole printable =>
    rw [Json.isPrintable, decide_eq_true_eq] at printable
    exact printable

theorem readable_parts (ctx : Context) (proper : call.Proper) : (Json.object (call.parts ctx)).Readable :=
  Json.readableMembers_iff.mpr fun part member => (parts_field ctx proper part member).readable

theorem line_json (json : ctx.logJson = true) :
    call.line ctx = (Json.object (call.parts ctx)).portable false := if_pos json

/-- In JSON the line of an event is printable ASCII, whatever its texts are. -/
theorem shown_line (json : ctx.logJson = true) : (call.line ctx).Shown := by
  rw [line_json json]
  exact List.all_eq_true.mp (Json.all_write Json.line_printable 0 _)

/-- The parts of an event hold no objects whose members could be put in order. -/
theorem sortKeys_parts (proper : call.Proper) : (Json.object (call.parts ctx)).sortKeys =
    .object (Members.sorted (call.parts ctx)) := by
  have same : (call.parts ctx).map (fun part => (part.1, part.2.sortKeys)) = call.parts ctx := by
    refine (List.map_congr_left fun part member => ?_).trans (List.map_id _)
    obtain ⟨name, v⟩ := part
    cases parts_field ctx proper (name, v) member <;> rfl
  rw [Json.sortKeys, Json.sortKeysMembers_eq]
  exact congrArg (fun parts => Json.object (Members.sorted parts)) same

/-- In JSON the line of an event is read back as its parts in order, each surrogate pair as one character. -/
theorem read_line (json : ctx.logJson = true) (proper : call.Proper) :
    Json.read (call.line ctx) = .ok (Json.object (Members.sorted (call.parts ctx))).paired := by
  rw [line_json json, ← sortKeys_parts proper]
  exact Json.read_write Json.legible_line (Json.readable_sortKeys (readable_parts ctx proper))

theorem distinct_parts : ((call.parts ctx).map (·.1)).Nodup := by
  apply Members.nodup_putAll
  change ([Text.ofString "ts", Text.ofString "level", Text.ofString "run_id", Text.ofString "component",
    Text.ofString "action", Text.ofString "file", Text.ofString "line"] : List Text).Nodup
  decide

theorem Field.plain {v : Json} (field : Field v) (unpaired : ∀ t, v = .str t → t.Unpaired) : v.Plain := by
  cases field with
  | text t => exact unpaired t rfl
  | whole printable => trivial

theorem Field.printable {v : Json} (field : Field v) : v.isPrintable = true := by
  cases field with
  | text t => rfl
  | whole printable => exact printable

/-- In JSON an event without surrogate pairs is read back as an object that has its fields, over what is told
of every event. -/
theorem read_line_members (json : ctx.logJson = true) (proper : call.Proper)
    (unpaired : call.Unpaired ctx) : ∃ found : Members, Json.read (call.line ctx) = .ok (.object found) ∧
      ∀ name, found.get? name =
        (call.event.fields.get? name).or ((call.fixedParts ctx).get? name) := by
  have fields := parts_field ctx proper
  have plain : (Json.object (call.parts ctx)).Plain :=
    ⟨distinct_parts, Json.plainMembers_iff.mpr fun part member =>
      ⟨(unpaired part member).1, (fields part member).plain (unpaired part member).2⟩⟩
  have printable : (Json.object (call.parts ctx)).isPrintable = true := by
    rw [Json.isPrintable, Json.arePrintableMembers_iff]
    exact fun part member => (fields part member).printable
  refine ⟨Members.sorted (call.parts ctx), ?_, fun name => ?_⟩
  · rw [line_json json, Json.read_portable plain printable, sortKeys_parts proper]
  · exact (Members.get?_perm distinct_parts (List.mergeSort_perm _ _)).trans
      (Members.get?_putAll proper.distinct)

end json

section words

/-- What the words of an event are made from. -/
def words (ctx : Context) (call : LogCall) : List Text :=
  ["ts=" ++ ((call.event.fields.get? "ts").getD (.str call.now.isoText)).plain,
      "level=" ++ call.event.level, "run_id=" ++ ctx.runId, "component=" ++ call.event.component,
      "action=" ++ call.event.action] ++
    (Members.sorted call.event.fields).map LogEvent.fieldText

theorem line_words (in_words : ctx.logJson = false) :
    call.line ctx = Text.join " " (call.words ctx) := by
  unfold line LogEvent.line
  rw [in_words]
  rfl

theorem Field.feed_free {v : Json} (field : Field v) (free : ∀ t, v = .str t → lineFeed ∉ t) :
    lineFeed ∉ v.plain := by
  cases field with
  | text t => exact free t rfl
  | @whole n printable => exact (Text.shown_ofInt n).no_feed

theorem mem_sorted {field : Text × Json} {fields : Members} :
    field ∈ Members.sorted fields ↔ field ∈ fields :=
  (List.mergeSort_perm _ _).mem_iff

theorem unbroken_of_words (free : ∀ word ∈ call.words ctx, lineFeed ∉ word) :
    Unbroken ctx call.event := by
  have labelled (name : Text) {t : Text} (member : name ++ t ∈ call.words ctx) : lineFeed ∉ t :=
    fun inside => free _ member (List.mem_append_right name inside)
  have field {f : Text × Json} (member : f ∈ call.event.fields) : lineFeed ∉ LogEvent.fieldText f :=
    free _ (List.mem_append_right _ (List.mem_map_of_mem (mem_sorted.mpr member)))
  constructor
  case runId => exact labelled "run_id=" (by simp [words])
  case level => exact labelled "level=" (by simp [words])
  case component => exact labelled "component=" (by simp [words])
  case action => exact labelled "action=" (by simp [words])
  case name =>
    intro f member inside
    exact field member (List.mem_append_left _ (List.mem_append_left _ inside))
  case text =>
    intro f member t same inside
    obtain ⟨name, v⟩ := f
    obtain rfl : v = .str t := same
    exact field member (List.mem_append_right _ inside)

theorem words_of_unbroken (proper : call.Proper) (unbroken : Unbroken ctx call.event) :
    ∀ word ∈ call.words ctx, lineFeed ∉ word := by
  have value (f : Text × Json) (member : f ∈ call.event.fields) : lineFeed ∉ f.2.plain :=
    (proper.fields f member).feed_free (unbroken.text f member)
  have time : lineFeed ∉ ((call.event.fields.get? "ts").getD (.str call.now.isoText)).plain := by
    cases found : call.event.fields.get? "ts" with
    | none => exact (DateTime.shown_isoText _).no_feed
    | some v => exact value _ (Json.mem_of_get found)
  intro word member
  rcases List.mem_append.mp member with fixed | field
  · simp only [List.mem_cons, List.not_mem_nil, or_false] at fixed
    rcases fixed with rfl | rfl | rfl | rfl | rfl
    · exact List.not_mem_append (by decide) time
    · exact List.not_mem_append (by decide) unbroken.level
    · exact List.not_mem_append (by decide) unbroken.runId
    · exact List.not_mem_append (by decide) unbroken.component
    · exact List.not_mem_append (by decide) unbroken.action
  · obtain ⟨f, inside, rfl⟩ := List.mem_map.mp field
    have given := mem_sorted.mp inside
    exact List.not_mem_append (List.not_mem_append (unbroken.name f given) (by decide)) (value f given)

/-- As words the line of an event has no line feed just where the event has none. -/
theorem feed_free_words (in_words : ctx.logJson = false) (proper : call.Proper) :
    lineFeed ∉ call.line ctx ↔ Unbroken ctx call.event := by
  have apart : lineFeed ∉ Text.ofString " " := by decide
  rw [line_words in_words, Text.mem_join apart]
  constructor
  · intro free
    exact unbroken_of_words fun word member inside => free ⟨word, member, inside⟩
  · rintro unbroken ⟨word, member, inside⟩
    exact words_of_unbroken proper unbroken word member inside

end words

/-- What is written for calls is one line for each event that is let through, which in JSON is always so, and
as words just where no such event has a line feed. In JSON each line is read back as the event, with each
surrogate pair as one character. -/
theorem events_framed (ctx : Context) (host : Host) {calls : List LogCall}
    (proper : ∀ call ∈ calls, call.Proper) :
    (∃ now site, (makeAll ctx calls).on host =
        (.ok (), { host with now, site, errors := host.errors ++ written ctx calls })) ∧
      (∀ call, call ∈ heard ctx calls ↔ call ∈ calls ∧ Heard ctx call.event.level) ∧
      (Text.splitAt lineFeed (written ctx calls) = (heard ctx calls).map (line ctx) ++ [[]] ↔
        ctx.logJson = true ∨ ∀ call ∈ heard ctx calls, Unbroken ctx call.event) ∧
      (ctx.logJson = true → ∀ call ∈ heard ctx calls,
        Json.read (call.line ctx) = .ok (Json.object (Members.sorted (call.parts ctx))).paired ∧
          (call.Unpaired ctx → ∃ found : Members, Json.read (call.line ctx) = .ok (.object found) ∧
            ∀ name, found.get? name =
              (call.event.fields.get? name).or ((call.fixedParts ctx).get? name))) := by
  have made {call : LogCall} (member : call ∈ heard ctx calls) : call.Proper :=
    proper call (mem_heard.mp member).1
  refine ⟨on_makeAll ctx (fun call member => (proper call member).clear) host, fun call => mem_heard, ?_, ?_⟩
  · rw [written, Text.splitAt_terminated, List.forall_mem_map]
    cases form : ctx.logJson with
    | true => simpa using fun call member => (shown_line form).no_feed
    | false =>
      constructor
      · intro free
        exact .inr fun call member => (feed_free_words form (made member)).mp (free call member)
      · rintro (json | unbroken) call member
        · cases json
        · exact (feed_free_words form (made member)).mpr (unbroken call member)
  · intro json call member
    exact ⟨read_line json (made member), read_line_members json (made member)⟩

section sample

/-- A context whose run id has a line feed. -/
def brokenContext (logJson : Bool) : Context where
  runId := "a\nb"
  workdir := ⟨"/", []⟩
  dryRun := false
  format := "text"
  verbose := false
  quiet := false
  logJson := logJson
  config := .standard

def quietHost : Host where
  disk := ⟨[]⟩
  workdir := []
  environment := []
  now := ⟨⟨2024, 1, 2⟩, 3, 4, 5, 0, some 0⟩
  engine := .script []
  engineScript := "/bridge.mjs"
  site := ⟨"main.py", 1⟩
  calls := []
  output := []
  errors := []

def callAt (line : Nat) (event : LogEvent) : LogCall :=
  ⟨⟨⟨2024, 1, 2⟩, 3, 4, 5, 0, some 0⟩, ⟨"generate.py", line⟩, event⟩

/-- A written file, whose name has a line feed, told with its size; and a file passed over, which is told to
those alone who want to hear more. -/
def sampleCalls : List LogCall :=
  [callAt 12 ⟨"info", "bundles", "write", [("path", .str "x\ny.ohm"), ("bytes", .int 4)]⟩,
    callAt 30 ⟨"debug", "bundles", "skip", []⟩]

theorem sample_proper : ∀ call ∈ sampleCalls, call.Proper := by
  have short (n : Nat) (small : (Text.ofNat n).length ≤ Json.digitLimit) :
      (Json.int n).isPrintable = true := decide_eq_true small
  intro call member
  simp only [sampleCalls, List.mem_cons, List.not_mem_nil, or_false] at member
  rcases member with rfl | rfl
  · refine ⟨rfl, by decide, ?_, short 12 (by cbv)⟩
    intro field member
    simp only [callAt, List.mem_cons, List.not_mem_nil, or_false] at member
    rcases member with rfl | rfl
    · exact .text _
    · exact .whole (short 4 (by cbv))
  · exact ⟨rfl, List.nodup_nil, fun field member => absurd member List.not_mem_nil, short 30 (by cbv)⟩

theorem events_framed_sample : (∀ call ∈ sampleCalls, call.Proper) ∧
    Text.splitAt lineFeed (written (brokenContext true) sampleCalls) =
      (heard (brokenContext true) sampleCalls).map (line (brokenContext true)) ++ [[]] ∧
    ∀ call ∈ heard (brokenContext true) sampleCalls, Json.read (call.line (brokenContext true)) =
      .ok (Json.object (Members.sorted (call.parts (brokenContext true)))).paired :=
  have framed := events_framed (brokenContext true) quietHost sample_proper
  ⟨sample_proper, framed.2.2.1.mpr (.inl rfl), fun call member => (framed.2.2.2 rfl call member).1⟩

/-- As words, an event of a run whose id has a line feed is two lines. -/
theorem broken_event_splits :
    ¬∀ (ctx : Context) (host : Host) (calls : List LogCall), (∀ call ∈ calls, call.Proper) →
      host.errors = [] →
      (Text.splitAt lineFeed ((makeAll ctx calls).on host).2.errors).length =
        (heard ctx calls).length + 1 := by
  intro always
  have one_line := always (brokenContext false) quietHost sampleCalls sample_proper rfl
  obtain ⟨now, site, made⟩ :=
    on_makeAll (brokenContext false) (fun call member => (sample_proper call member).clear) quietHost
  rw [made] at one_line
  have pieces : (Text.splitAt lineFeed (written (brokenContext false) sampleCalls)).length = 4 := by cbv
  cases pieces.symm.trans one_line

end sample

end LogCall

end GrammarBundle
