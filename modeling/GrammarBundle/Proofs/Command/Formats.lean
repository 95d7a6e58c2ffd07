import GrammarBundle.Proofs.Command.Contract
import GrammarBundle.Proofs.Command.Spellings

/-!
In which format a run answers. It is asked for JSON where the flag for JSON stands among the arguments as it
is written in full. So a shortened flag, which reading takes for it, does not count, and a pattern that is
written like it does. Where there is neither, the run answers as the flags say that were read.
-/

namespace GrammarBundle.Invocation

open Command

/-- A run that ends as it is asked to: JSON beside the format for text is a conflict, and otherwise the run is
performed in JSON if its flag or the format asks for that, and else in text. -/
def Answers (i : Invocation) (json : Bool) (host : Host) (ended : ExitCode × Host) : Prop :=
  if json = true ∧ i.switches.format = some "text" then
    ended = (.config, host.withError conflictMessage)
  else if json = true ∨ i.switches.format = some "json" then ended = i.performReported "json" host
  else ended = i.performReported "text" host

section

variable {arguments : List Text} {i : Invocation}

/-- A command line that can be read asks for no format, for text, or for JSON. -/
theorem format_cases (parsed : read arguments = .ok i) :
    i.switches.format = none ∨ i.switches.format = some "text" ∨ i.switches.format = some "json" := by
  cases given : i.switches.format with
  | none => exact .inl rfl
  | some t =>
    rcases List.mem_cons.mp (known_read parsed t given) with rfl | other
    · exact .inr (.inl rfl)
    · rw [List.mem_singleton.mp other]
      exact .inr (.inr rfl)

/-- A run is asked for JSON by an argument that is the flag in full, whatever it was taken for. -/
theorem answers_written (parsed : read arguments = .ok i) (host : Host) :
    i.Answers (arguments.contains jsonFlag) host (run arguments host) := by
  unfold Answers run
  rw [parsed]
  generalize arguments.contains jsonFlag = json
  dsimp only
  unfold hasConflict
  rcases format_cases parsed with given | given | given <;> rw [given] <;> cases json
  all_goals rfl

/-- Where the flag is written in full, and no pattern is written like it, it stands among the arguments just
where it was given. -/
theorem contains_eq_hasJson (parsed : read arguments = .ok i)
    (full : ∀ t ∈ arguments, t ∈ jsonSpellings → t = jsonFlag)
    (unlike : jsonFlag ∉ i.command.patterns) : arguments.contains jsonFlag = i.hasJson := by
  rw [Bool.eq_iff_iff, List.contains_iff_mem]
  constructor
  · intro written
    have spelled : jsonFlag ∈ jsonSpellings := by decide
    exact (hasJson_or_pattern parsed spelled written).resolve_right unlike
  · intro given
    obtain ⟨t, member, spelled⟩ := spelled_of_hasJson parsed given
    exact full t member spelled ▸ member

/-- A run answers as the flag for JSON says that stands in full among its arguments. That is a flag which was
given, or a pattern; and a flag which was given stands there in full or shortened. So where no argument is a
shortened flag, and no pattern is written like the flag, the run answers as the flags say that were read. -/
theorem run_answers (parsed : read arguments = .ok i) (host : Host) :
    i.Answers (arguments.contains jsonFlag) host (run arguments host) ∧
      (arguments.contains jsonFlag = true → i.hasJson = true ∨ jsonFlag ∈ i.command.patterns) ∧
      (i.hasJson = true → ∃ t ∈ arguments, t ∈ jsonSpellings) ∧
      ((∀ t ∈ arguments, t ∈ jsonSpellings → t = jsonFlag) → jsonFlag ∉ i.command.patterns →
        i.Answers i.hasJson host (run arguments host)) := by
  refine ⟨answers_written parsed host, fun written => ?_, spelled_of_hasJson parsed,
    fun full unlike => ?_⟩
  · exact hasJson_or_pattern parsed (by decide) (List.contains_iff_mem.mp written)
  · rw [← contains_eq_hasJson parsed full unlike]
    exact answers_written parsed host

end

/-- A command line that asks for JSON in full, for the program, after a format that agrees. -/
def agreeingArguments : List Text := ["--format", "json", "--json", "version"]

def agreeingInvocation : Invocation :=
  ⟨{ Switches.unset with json := true, format := some "json" }, .version false⟩

theorem run_answers_agreeing : read agreeingArguments = .ok agreeingInvocation ∧
    (∀ t ∈ agreeingArguments, t ∈ jsonSpellings → t = jsonFlag) ∧
    jsonFlag ∉ agreeingInvocation.command.patterns ∧
    agreeingInvocation.Answers agreeingInvocation.hasJson Bundle.sampleHost
      (run agreeingArguments Bundle.sampleHost) :=
  have parsed : read agreeingArguments = .ok agreeingInvocation := rfl
  have full : ∀ t ∈ agreeingArguments, t ∈ jsonSpellings → t = jsonFlag := by decide
  have unlike : jsonFlag ∉ agreeingInvocation.command.patterns := by decide
  ⟨parsed, full, unlike, (run_answers parsed Bundle.sampleHost).2.2.2 full unlike⟩

def shortenedArguments : List Text := ["--js", "--format", "text", "version"]

def shortenedInvocation : Invocation :=
  ⟨{ Switches.unset with json := true, format := some "text" }, .version false⟩

/-- A shortened flag for JSON is read as that flag, and yet is no conflict with the format for text. -/
theorem shortened_flag_ignored :
    ¬∀ (arguments : List Text) (i : Invocation) (host : Host), read arguments = .ok i →
      i.Answers i.hasJson host (run arguments host) := by
  intro always
  have parsed : read shortenedArguments = .ok shortenedInvocation := rfl
  have conflict := always shortenedArguments shortenedInvocation Bundle.sampleHost parsed
  have success : (run shortenedArguments Bundle.sampleHost).1 = .success := by
    unfold run
    rw [parsed]
    cbv
  rw [Answers, if_pos (by decide)] at conflict
  rw [conflict] at success
  cases success

end GrammarBundle.Invocation
