import GrammarBundle.Proofs.Config.Load
import GrammarBundle.Proofs.Config.Rules

/-!
Which value is in force. A loaded configuration comes from the document that is asked for or from the first
one that is there, or from none. The names of the program and of its module are those that the environment
gives, else those of the document, else the defaults; all else is what the document says, else the default.
-/

namespace GrammarBundle.Config

/-- A path that leads to a file. -/
def IsFile (host : Host) (path : Path) : Prop :=
  ∃ place bytes, host.disk.look host.workdir true path.toText = .ok (place, .file bytes)

/-- What a document says for a name. -/
def given (document : Datum) (name : Text) : Option Datum := valueOf name (entriesOf document)

/-- The value in force: that of a variable if it is not empty, else what is given, else the default. -/
def prevailing (named : Option Text) (given : Option Datum) (fallback : Datum) : Datum :=
  match named.filter (!·.isEmpty) with
  | some t => .str t
  | none => given.getD fallback

/-- The document that is selected: the file that is asked for, which must be there, else the first file
under the names for it, if any is there. -/
inductive Selected (host : Host) (directory : Path) : Option Text → Option Path → Prop
  | asked {name : Text} : name ≠ [] → IsFile host (directory.join name) →
      Selected host directory (some name) (some (directory.join name))
  | found {explicit : Option Text} {before after : List Text} {name : Text} :
      explicit.filter (!·.isEmpty) = none → fileNames = before ++ name :: after →
      (∀ other ∈ before, ¬IsFile host (directory.join other)) → IsFile host (directory.join name) →
      Selected host directory explicit (some (directory.join name))
  | nothing {explicit : Option Text} : explicit.filter (!·.isEmpty) = none →
      (∀ name ∈ fileNames, ¬IsFile host (directory.join name)) → Selected host directory explicit none

/-- The document that is used, with its path; where none is there, it is the empty one. -/
inductive Used (host : Host) (directory : Path) (explicit : Option Text) : Option Path → Datum → Prop
  | alone : Selected host directory explicit none → Used host directory explicit none .null
  | file {path : Path} {bytes : List UInt8} {text : Text} {document : Datum} :
      Selected host directory explicit (some path) →
      host.disk.read host.workdir path.toText = .ok bytes → Utf8.decode bytes = .ok text →
      parse path text.unifyLineEnds = .ok document →
      Used host directory explicit (some path) document

/-- The values of a configuration meet the rules for them. -/
structure Valid (c : Config) : Prop where
  node : Meets .text (.str c.node)
  runtime : Meets .text (.str c.runtime)
  typesModule : Meets .text (.str c.typesModule)
  timeout : Meets .count c.timeout.toDatum
  withTypes : Meets .flag (.bool c.withTypes)
  esm : Meets .flag (.bool c.esm)

/-- Each value of a configuration is the one in force. -/
structure Precedence (environment : Text → Option Text) (document : Datum) (c : Config) : Prop where
  node : .str c.node =
    prevailing (environment "OHM_BUNDLER_NODE") (given document "node") (.str "node")
  runtime : .str c.runtime =
    prevailing (environment "OHM_BUNDLER_OHM_MODULE") (given document "ohm_module") (.str "ohm-js")
  typesModule : .str c.typesModule =
    (given document "types_module").getD (.str "@ohm-js/cli/src/helpers/generateTypes.js")
  timeout : c.timeout.toDatum = (given document "timeout_seconds").getD (.int 60)
  withTypes : .bool c.withTypes = (given document "with_types").getD (.bool false)
  esm : .bool c.esm = (given document "esm").getD (.bool false)

section

variable {host : Host} {directory : Path} {explicit : Option Text}

theorem isFile_told (host : Host) (path : Path) :
    ((Action.isFile path).on host = (.ok true, host) ∧ IsFile host path) ∨
    ((Action.isFile path).on host = (.ok false, host) ∧ ¬IsFile host path) ∨
    ∃ failure, (Action.isFile path).on host = (.error failure, host) := by
  rcases isFile_cases host path with ⟨place, bytes, found, yes⟩ | no | ⟨fault, refused⟩
  · exact .inl ⟨yes, place, bytes, found⟩
  · refine .inr (.inl ⟨no, ?_⟩)
    rintro ⟨place, bytes, found⟩
    rw [Action.on_isFile, found] at no
    cases no
  · exact .inr (.inr ⟨_, refused⟩)

/-- Of the files in a directory under some names the first is found. -/
theorem firstFile_told {names : List Text} {choice : Option Path}
    (told : ((firstFile directory names).on host).1 = .ok choice) :
    (choice = none ∧ ∀ name ∈ names, ¬IsFile host (directory.join name)) ∨
      ∃ before name after, names = before ++ name :: after ∧
        (∀ other ∈ before, ¬IsFile host (directory.join other)) ∧
        IsFile host (directory.join name) ∧ choice = some (directory.join name) := by
  induction names with
  | nil =>
    cases told
    exact .inl ⟨rfl, fun name there => absurd there List.not_mem_nil⟩
  | cons name names ih =>
    rw [firstFile, Action.on_bind] at told
    rcases isFile_told host (directory.join name) with ⟨yes, found⟩ | ⟨no, missing⟩ | ⟨failure, refused⟩
    · rw [yes] at told
      cases told
      exact .inr ⟨[], name, names, rfl, fun other there => absurd there List.not_mem_nil, found, rfl⟩
    · rw [no] at told
      rcases ih told with ⟨nothing, others⟩ | ⟨before, first, after, rfl, others, found, chosen⟩
      · exact .inl ⟨nothing, List.forall_mem_cons.mpr ⟨missing, others⟩⟩
      · exact .inr ⟨name :: before, first, after, rfl, List.forall_mem_cons.mpr ⟨missing, others⟩,
          found, chosen⟩
    · rw [refused] at told
      cases told

/-- A search that ends has selected its document. -/
theorem documentPath_selected {choice : Option Path}
    (told : ((documentPath directory explicit).on host).1 = .ok choice) :
    Selected host directory explicit choice := by
  unfold documentPath at told
  cases asked : explicit.filter (!·.isEmpty) with
  | none =>
    rw [asked] at told
    rcases firstFile_told told with ⟨rfl, missing⟩ | ⟨before, name, after, names, others, found, rfl⟩
    · exact .nothing asked missing
    · exact .found asked names others found
  | some name =>
    rw [asked] at told
    dsimp only at told
    obtain ⟨rfl, some_name⟩ := Option.filter_eq_some_iff.mp asked
    rw [Action.on_bind] at told
    rcases isFile_told host (directory.join name) with ⟨yes, found⟩ | ⟨no, missing⟩ | ⟨failure, refused⟩
    · rw [yes] at told
      cases told
      refine .asked ?_ found
      rintro rfl
      cases some_name
    · rw [no] at told
      cases told
    · rw [refused] at told
      cases told

theorem settingsOf_eq_ok_iff (path : Option Text) (document : Datum) (settings : Settings) :
    settingsOf path document = .ok settings ↔
      Accepted document ∧ settings = .ofEntries (entriesOf document) := by
  rw [← ofDocument_eq_ok_iff]
  unfold settingsOf
  cases wordless : Settings.isWordless document with
  | true =>
    refine iff_of_false (fun same => by cases same) fun made => ?_
    rw [worded_of_accepted ((ofDocument_eq_ok_iff document settings).mp made).1] at wordless
    cases wordless
  | false =>
    cases Settings.ofDocument document with
    | ok made => simp only [Except.ok.injEq]
    | error violation => exact iff_of_false (fun same => by cases same) (fun same => by cases same)

/-- Bytes that make settings are the text of an accepted document. -/
theorem settingsOfBytes_ok {path : Path} {bytes : List UInt8} {settings : Settings}
    (made : settingsOfBytes Yaml.read path bytes = .ok settings) :
    ∃ text document, Utf8.decode bytes = .ok text ∧ parse path text.unifyLineEnds = .ok document ∧
      Accepted document ∧ settings = .ofEntries (entriesOf document) := by
  unfold settingsOfBytes at made
  cases decoded : Utf8.decode bytes with
  | error fault =>
    rw [decoded] at made
    cases made
  | ok text =>
    rw [decoded] at made
    dsimp only at made
    cases parsed : parseWith Yaml.read path text.unifyLineEnds with
    | error failure =>
      rw [parsed] at made
      cases made
    | ok document =>
      rw [parsed] at made
      exact ⟨text, document, rfl, parsed, (settingsOf_eq_ok_iff _ document settings).mp made⟩

/-- A configuration that is loaded is that of the document which is used. -/
theorem load_used {config : Config} (loaded : ((load directory explicit).on host).1 = .ok config) :
    ∃ document, Used host directory explicit config.source document ∧ Accepted document ∧
      config = { inForce host ⟨"/", []⟩ (.ofEntries (entriesOf document)) with source := config.source } := by
  obtain ⟨result, searched, sought⟩ := documentPath_sought host directory explicit
  have selected {choice : Option Path} (same : result = .ok choice) :
      Selected host directory explicit choice := documentPath_selected (by rw [searched, same])
  cases sought with
  | nothing =>
    rw [on_load_nothing searched] at loaded
    cases loaded
    exact ⟨.null, .alone (selected rfl), .nothing, rfl⟩
  | missing path =>
    rw [on_load_failed searched] at loaded
    cases loaded
  | refused fault =>
    rw [on_load_failed searched] at loaded
    cases loaded
  | @file path place bytes there =>
    have held : host.disk.read host.workdir path.toText = .ok bytes := by rw [Disk.read, there]
    rw [on_load_file searched held] at loaded
    cases made : settingsOfBytes Yaml.read path bytes with
    | error failure =>
      rw [made] at loaded
      cases loaded
    | ok settings =>
      rw [made] at loaded
      cases loaded
      obtain ⟨text, document, decoded, parsed, accepted, rfl⟩ := settingsOfBytes_ok made
      exact ⟨document, .file (selected rfl) held decoded parsed, accepted, rfl⟩

end

section

variable {g : Option Datum}

/-- Text that is given or else the default, and what a variable makes of it. -/
theorem text_prevailing (met : ∀ v, g = some v → Meets .text v) {fallback : Text}
    (some_text : fallback ≠ []) (named : Option Text) :
    .str (overridden named ((g.bind textOf?).getD fallback)) = prevailing named g (.str fallback) ∧
      Meets .text (prevailing named g (.str fallback)) := by
  have unnamed : .str ((g.bind textOf?).getD fallback) = g.getD (.str fallback) ∧
      Meets .text (g.getD (.str fallback)) := by
    cases g with
    | none => exact ⟨rfl, .text some_text⟩
    | some v =>
      have met := met v rfl
      cases met with
      | text some_text => exact ⟨rfl, .text some_text⟩
  unfold overridden prevailing
  cases named with
  | none => exact unnamed
  | some t =>
    cases t with
    | nil => exact unnamed
    | cons p t => exact ⟨rfl, .text (List.cons_ne_nil p t)⟩

theorem count_given (met : ∀ v, g = some v → Meets .count v) {fallback : Numeral}
    (some_count : Meets .count fallback.toDatum) :
    ((g.bind integer?).getD fallback).toDatum = g.getD fallback.toDatum ∧
      Meets .count (g.getD fallback.toDatum) := by
  cases g with
  | none => exact ⟨rfl, some_count⟩
  | some v =>
    have met := met v rfl
    cases met with
    | count whole positive =>
      refine ⟨?_, .count whole positive⟩
      rw [Option.bind_some, integer_eq_some_iff.mpr ⟨rfl, _, whole⟩]
      rfl

theorem flag_given (met : ∀ v, g = some v → Meets .flag v) (fallback : Bool) :
    .bool ((g.bind flagOf?).getD fallback) = g.getD (.bool fallback) := by
  cases g with
  | none => rfl
  | some v =>
    have met := met v rfl
    cases met
    rfl

end

theorem Accepted.lawful {document : Datum} (accepted : Accepted document) :
    Lawful (entriesOf document) := by
  cases accepted with
  | nothing =>
    constructor
    · intro entry there
      cases there
    · intro name rule v row given
      cases given
  | mapping lawful => exact lawful

/-- The settings of an accepted document and the environment make a configuration that is valid and has
the values in force. -/
theorem inForce_follows {document : Datum} (accepted : Accepted document) (host : Host) (path : Path)
    (source : Option Path) :
    Valid { inForce host path (.ofEntries (entriesOf document)) with source := source } ∧
      Precedence (variableOn host) document
        { inForce host path (.ofEntries (entriesOf document)) with source := source } := by
  have lawful := accepted.lawful
  have met (name : Text) (rule : Rule) (row : (name, rule) ∈ rules) :
      ∀ v, given document name = some v → Meets rule v := fun v => lawful.met row
  have some_node : standard.node ≠ [] := by decide
  have some_runtime : standard.runtime ≠ [] := by decide
  have some_types : standard.typesModule ≠ [] := by decide
  have count : Meets .count standard.timeout.toDatum := .count rfl (by decide)
  obtain ⟨node, node_met⟩ :=
    text_prevailing (met "node" .text (by decide)) some_node (variableOn host nodeVariable)
  obtain ⟨runtime, runtime_met⟩ :=
    text_prevailing (met "ohm_module" .text (by decide)) some_runtime (variableOn host runtimeVariable)
  obtain ⟨types, types_met⟩ :=
    text_prevailing (met "types_module" .text (by decide)) some_types none
  obtain ⟨timeout, timeout_met⟩ := count_given (met "timeout_seconds" .count (by decide)) count
  constructor
  · constructor
    case node => exact node ▸ node_met
    case runtime => exact runtime ▸ runtime_met
    case typesModule => exact types ▸ types_met
    case timeout => exact timeout ▸ timeout_met
    case withTypes => exact .flag _
    case esm => exact .flag _
  · constructor
    case node => exact node
    case runtime => exact runtime
    case typesModule => exact types
    case timeout => exact timeout
    case withTypes => exact flag_given (met "with_types" .flag (by decide)) false
    case esm => exact flag_given (met "esm" .flag (by decide)) false

/-- A configuration that is loaded is valid, and each of its values is the one in force for the document
that is used, whose path is its source. A document makes settings exactly if it is none at all or a mapping
of known names to values that meet their rules. The names of a mapping being distinct, its entries but the
version make the configuration of its settings one by one, and none is refused. -/
theorem load_in_force (host : Host) (directory : Path) (explicit : Option Text) :
    (∀ config, ((load directory explicit).on host).1 = .ok config →
      Valid config ∧ ∃ document, Used host directory explicit config.source document ∧
        Precedence (variableOn host) document config) ∧
    (∀ path document, (∃ settings, settingsOf path document = .ok settings) ↔ Accepted document) ∧
    ∀ path document settings, settingsOf path document = .ok settings →
      ((entriesOf document).map (·.1)).Nodup → ∀ source,
        withEntries { standard with source := some source } (setting (entriesOf document)) =
          some (ofSettings source settings) := by
  refine ⟨?_, ?_, ?_⟩
  · intro config loaded
    obtain ⟨document, used, accepted, same⟩ := load_used loaded
    obtain ⟨valid, precedence⟩ := inForce_follows accepted host ⟨"/", []⟩ config.source
    rw [← same] at valid precedence
    exact ⟨valid, document, used, precedence⟩
  · intro path document
    constructor
    · rintro ⟨settings, made⟩
      exact ((settingsOf_eq_ok_iff path document settings).mp made).1
    · intro accepted
      exact ⟨_, (settingsOf_eq_ok_iff path document _).mpr ⟨accepted, rfl⟩⟩
  · intro path document settings made distinct source
    obtain ⟨accepted, rfl⟩ := (settingsOf_eq_ok_iff path document settings).mp made
    exact withEntries_lawful source accepted.lawful distinct

section sample

/-- A host whose document switches the form of modules, with another program in its environment. -/
def switchedHost : Host :=
  { documentHost "ohm-bundler.json"
      [0x7B, 0x22, 0x65, 0x73, 0x6D, 0x22, 0x3A, 0x74, 0x72, 0x75, 0x65, 0x7D] with
    environment := [(nodeVariable, "bun")] }

def switchedConfig : Config :=
  { standard with node := "bun", esm := true, source := some ⟨"/", ["ohm-bundler.json"]⟩ }

def switchedDocument : Datum := .mapping [(.str "schema_version", .int 1), (.str "esm", .bool true)]

def switchedSettings : Settings := { Settings.unset with esm := some true }

theorem load_in_force_switched :
    ((load ⟨"/", []⟩ none).on switchedHost).1 = .ok switchedConfig ∧
    Valid switchedConfig ∧
    (∃ document, Used switchedHost ⟨"/", []⟩ none switchedConfig.source document ∧
      Precedence (variableOn switchedHost) document switchedConfig) ∧
    settingsOf none switchedDocument = .ok switchedSettings ∧
    ((entriesOf switchedDocument).map (·.1)).Nodup ∧
    withEntries { standard with source := some ⟨"/", []⟩ } (setting (entriesOf switchedDocument)) =
      some (ofSettings ⟨"/", []⟩ switchedSettings) := by
  have loaded : ((load ⟨"/", []⟩ none).on switchedHost).1 = .ok switchedConfig := by cbv
  have made : settingsOf none switchedDocument = .ok switchedSettings := by cbv
  have distinct : ((entriesOf switchedDocument).map (·.1)).Nodup := by
    simp +decide [switchedDocument, entriesOf]
  obtain ⟨follows, _, built⟩ := load_in_force switchedHost ⟨"/", []⟩ none
  obtain ⟨valid, used⟩ := follows _ loaded
  exact ⟨loaded, valid, used, made, distinct, built none _ _ made distinct _⟩

end sample

end GrammarBundle.Config
