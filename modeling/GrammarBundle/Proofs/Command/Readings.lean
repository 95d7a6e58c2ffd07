import GrammarBundle.Command.Run
import GrammarBundle.Proofs.Files.Passable
import GrammarBundle.Proofs.Run.Actions

/-!
What every command line that can be read keeps. Its flags are taken one after another with values that are
ends of its arguments, and its words are arguments. So a format that is asked for is one of those that there
are, because a flag that names another one ends the reading, and paths are passable if the arguments are.
-/

namespace GrammarBundle

theorem Text.suffix_of_cut {fragment t before after : Text}
    (cut : Text.cut? fragment t = some (before, after)) : after <:+ t := by
  induction t generalizing before with
  | nil =>
    unfold Text.cut? at cut
    split at cut <;> cases cut
    exact List.suffix_refl _
  | cons p rest ih =>
    unfold Text.cut? at cut
    split at cut
    · cases cut
      exact List.drop_suffix _ _
    · obtain ⟨⟨front, back⟩, found, same⟩ := Option.map_eq_some_iff.mp cut
      cases same
      exact (ih found).trans (List.suffix_cons _ _)

namespace Command

/-- A property of switches that flags keep whose values are allowed, where the ends of what is allowed are
allowed too. -/
structure Invariant (holds : Switches → Prop) (allowed : Text → Prop) : Prop where
  unset : holds .unset
  take : ∀ {form : Form} {s next : Switches} {value : Option Text} {flag : Flag}, holds s →
    (∀ t, value = some t → allowed t) → s.take form value flag = .ok next → holds next
  suffix : ∀ {s t : Text}, allowed t → s <:+ t → allowed s

/-- An argument that is allowed, with the value attached to it. -/
def Argument.Allowed (allowed : Text → Prop) (argument : Argument) : Prop :=
  allowed argument.text ∧
    ∀ flag value, argument.look = .flag flag (some value) → allowed value

theorem suffix_of_splitValue {t name value : Text} (attached : Form.splitValue t = (name, some value)) :
    value <:+ t := by
  unfold Form.splitValue at attached
  split at attached
  next cut =>
    cases attached
    exact Text.suffix_of_cut cut
  · cases attached

theorem suffix_of_candidates {form : Form} {t name value : Text} {flag : Flag}
    (candidate : (name, Look.flag flag (some value)) ∈ form.candidates t) : value <:+ t := by
  unfold Form.candidates at candidate
  split at candidate
  · cases attached : Form.splitValue t with
    | mk stem given =>
      rw [attached] at candidate
      obtain ⟨named, _, same⟩ := List.mem_map.mp candidate
      cases same
      exact suffix_of_splitValue attached
  · obtain ⟨named, _, same⟩ := List.mem_map.mp candidate
    cases same
    exact List.drop_suffix _ _

theorem suffix_of_unnamed {form : Form} {t value : Text} {flag : Flag}
    (looks : form.lookOfUnnamed t = .ok (.flag flag (some value))) : value <:+ t := by
  unfold Form.lookOfUnnamed at looks
  split at looks
  next name look only =>
    cases looks
    exact suffix_of_candidates (only ▸ List.mem_singleton_self _)
  · split at looks <;> cases looks
  · cases looks

/-- A value that is attached to an argument is its end. -/
theorem suffix_of_look {form : Form} {t value : Text} {flag : Flag}
    (looks : form.lookOf t = .ok (.flag flag (some value))) : value <:+ t := by
  unfold Form.lookOf at looks
  split at looks
  · cases looks
  · split at looks
    · cases looks
    · split at looks
      · cases looks
      · split at looks
        · exact suffix_of_unnamed looks
        next attached =>
          split at looks
          · cases looks
            exact suffix_of_splitValue attached
          · exact suffix_of_unnamed looks

theorem interrupted_switches (taken : Taken) : taken.interrupted.switches = taken.switches := by
  unfold Taken.interrupted
  split <;> rfl

theorem interrupted_words (taken : Taken) : taken.interrupted.words = taken.words := by
  unfold Taken.interrupted
  split <;> rfl

theorem offer_switches (taken : Taken) (form : Form) (t : Text) (startsNone : Bool) :
    (taken.offer form t startsNone).switches = taken.switches := by
  unfold Taken.offer
  split
  · split <;> rfl
  · rfl
  · rfl

theorem mem_offer {taken : Taken} {form : Form} {t word : Text} {startsNone : Bool}
    (member : word ∈ (taken.offer form t startsNone).words) : word = t ∨ word ∈ taken.words := by
  unfold Taken.offer at member
  split at member
  · split at member
    · exact .inr member
    · exact .inl (List.mem_singleton.mp member)
  · exact (List.mem_append.mp member).symm.imp_left List.mem_singleton.mp
  · exact .inr member

theorem switching_ok {taken after : Taken} {result : Except Ending Switches}
    (done : taken.switching result = .ok after) :
    ∃ switches, result = .ok switches ∧ after = { taken.interrupted with switches } := by
  cases result with
  | error ending => cases done
  | ok switches => exact ⟨switches, rfl, (Except.ok.inj done).symm⟩

/-- How arguments are taken from left to right, where nothing ends the reading. -/
inductive Takes (form : Form) : Taken → List Argument → Taken → Prop
  | done {taken : Taken} : Takes form taken [] taken
  | stranger {taken after : Taken} {t : Text} {rest : List Argument} :
      Takes form (taken.interrupted.leave t) rest after → Takes form taken (⟨t, .stranger⟩ :: rest) after
  | attached {taken after : Taken} {t value : Text} {flag : Flag} {rest : List Argument}
      {switches : Switches} : taken.switches.takeAttached form t flag value = .ok switches →
      Takes form { taken.interrupted with switches } rest after →
      Takes form taken (⟨t, .flag flag (some value)⟩ :: rest) after
  | valued {taken after : Taken} {t value : Text} {flag : Flag} {rest : List Argument}
      {switches : Switches} : flag.takesValue = true →
      taken.switches.take form (some value) flag = .ok switches →
      Takes form { taken.interrupted with switches } rest after →
      Takes form taken (⟨t, .flag flag none⟩ :: ⟨value, .word⟩ :: rest) after
  | plain {taken after : Taken} {t : Text} {flag : Flag} {rest : List Argument} {switches : Switches} :
      taken.switches.take form none flag = .ok switches →
      Takes form { taken.interrupted with switches } rest after →
      Takes form taken (⟨t, .flag flag none⟩ :: rest) after
  | command {taken : Taken} {t : Text} {look : Look} {rest : List Argument} : form.intake = .command →
      Takes form taken (⟨t, look⟩ :: rest) { taken with words := t :: rest.map Argument.text }
  | offered {taken after : Taken} {t : Text} {look : Look} {startsNone : Bool} {rest : List Argument} :
      Takes form (taken.offer form t startsNone) rest after → Takes form taken (⟨t, look⟩ :: rest) after

theorem takes_of_takeArguments {form : Form} {taken after : Taken} {arguments : List Argument}
    (done : takeArguments form taken arguments = .ok after) : Takes form taken arguments after := by
  induction taken, arguments using takeArguments.induct form generalizing after with
  | case1 taken =>
    cases done
    exact .done
  | case2 taken t rest ih =>
    rw [takeArguments] at done
    exact .stranger (ih done)
  | case3 taken text flag value rest ih =>
    rw [takeArguments] at done
    obtain ⟨middle, first, later⟩ := bind_ok.mp done
    obtain ⟨switches, attached, rfl⟩ := switching_ok first
    exact .attached attached (ih _ later)
  | case4 taken text flag valued value rest ih =>
    rw [takeArguments, if_pos valued] at done
    obtain ⟨middle, first, later⟩ := bind_ok.mp done
    obtain ⟨switches, one, rfl⟩ := switching_ok first
    exact .valued valued one (ih _ later)
  | case5 taken text flag rest valued alone =>
    rw [takeArguments, if_pos valued] at done
    · cases done
    · exact alone
  | case6 taken text flag rest plain ih =>
    unfold takeArguments at done
    rw [if_neg plain] at done
    obtain ⟨middle, first, later⟩ := bind_ok.mp done
    obtain ⟨switches, one, rfl⟩ := switching_ok first
    exact .plain one (ih _ later)
  | case7 taken t look rest familiar unvalued unflagged startsNone =>
    rename_i commanded
    rw [takeArguments, if_pos commanded] at done
    · cases done
      exact .command (of_decide_eq_true (Bool.and_eq_true_iff.mp commanded).1)
    · exact familiar
    · exact unvalued
    · exact unflagged
  | case8 taken t look rest familiar unvalued unflagged startsNone offered =>
    rename_i ih
    rw [takeArguments, if_neg offered] at done
    · exact .offered (ih done)
    · exact familiar
    · exact unvalued
    · exact unflagged

/-- The looks of arguments are those of their texts, up to the divider. -/
theorem looks_cons {form : Form} {u : Text} {texts : List Text} {arguments : List Argument}
    (looked : form.looks (u :: texts) = .ok arguments) :
    (u = divider ∧ arguments = ⟨u, .divider⟩ :: texts.map fun word => ⟨word, .word⟩) ∨
      ∃ look rest, u ≠ divider ∧ form.lookOf u = .ok look ∧ form.looks texts = .ok rest ∧
        arguments = ⟨u, look⟩ :: rest := by
  unfold Form.looks at looked
  split at looked
  next same =>
    cases looked
    exact .inl ⟨same, rfl⟩
  next other =>
    split at looked
    · cases looked
    next look own =>
      cases more : form.looks texts with
      | error fault =>
        rw [more] at looked
        cases looked
      | ok rest =>
        rw [more] at looked
        cases looked
        exact .inr ⟨look, rest, other, own, rfl, rfl⟩

namespace Invariant

variable {holds : Switches → Prop} {allowed : Text → Prop} {form : Form} {s next : Switches}

theorem takeAll (kept : Invariant holds allowed) {flags : List Flag} (now : holds s)
    (taken : s.takeAll form flags = .ok next) : holds next := by
  induction flags generalizing s with
  | nil =>
    cases taken
    exact now
  | cons flag flags ih =>
    rw [Switches.takeAll] at taken
    split at taken
    · cases taken
    next middle one => exact ih (kept.take now (fun _ given => by cases given) one) taken

theorem takeAttached (kept : Invariant holds allowed) {given value : Text} {flag : Flag} (now : holds s)
    (attached : allowed value) (taken : s.takeAttached form given flag value = .ok next) :
    holds next := by
  unfold Switches.takeAttached at taken
  split at taken
  · refine kept.take now (fun t same => ?_) taken
    split at same
    · cases same
    · cases same
      exact attached
  · split at taken
    · split at taken
      · cases taken
      · exact kept.takeAll now taken
    · cases taken

/-- A command line as far as it is taken, with words that are allowed. -/
def Held (holds : Switches → Prop) (allowed : Text → Prop) (taken : Taken) : Prop :=
  holds taken.switches ∧ ∀ word ∈ taken.words, allowed word

theorem held_switched {taken : Taken} {switches : Switches} (held : Held holds allowed taken)
    (now : holds switches) : Held holds allowed { taken.interrupted with switches } := by
  refine ⟨now, fun word member => held.2 word ?_⟩
  rw [← interrupted_words]
  exact member

/-- Arguments are taken one after another, and each keeps what holds. -/
theorem takes (kept : Invariant holds allowed) {taken after : Taken} {arguments : List Argument}
    (held : Held holds allowed taken) (all : ∀ argument ∈ arguments, argument.Allowed allowed)
    (takes : Takes form taken arguments after) : Held holds allowed after := by
  induction takes with
  | done => exact held
  | stranger _ ih =>
    refine ih ⟨?_, ?_⟩ (List.forall_mem_cons.mp all).2
    · rw [Taken.leave, interrupted_switches]
      exact held.1
    · rw [Taken.leave, interrupted_words]
      exact held.2
  | attached attached _ ih =>
    obtain ⟨here, others⟩ := List.forall_mem_cons.mp all
    exact ih (held_switched held (kept.takeAttached held.1 (here.2 _ _ rfl) attached)) others
  | @valued _ _ _ value _ _ _ valued one _ ih =>
    obtain ⟨here, others⟩ := List.forall_mem_cons.mp (List.forall_mem_cons.mp all).2
    have given (t : Text) (same : some value = some t) : allowed t := by
      cases same
      exact here.1
    exact ih (held_switched held (kept.take held.1 given one)) others
  | plain one _ ih =>
    have bare (t : Text) (same : none = some t) : allowed t := by cases same
    exact ih (held_switched held (kept.take held.1 bare one)) (List.forall_mem_cons.mp all).2
  | @command _ t look rest _ =>
    refine ⟨held.1, fun word member => ?_⟩
    change word ∈ (⟨t, look⟩ :: rest : List Argument).map Argument.text at member
    obtain ⟨argument, listed, rfl⟩ := List.mem_map.mp member
    exact (all argument listed).1
  | offered _ ih =>
    obtain ⟨here, others⟩ := List.forall_mem_cons.mp all
    refine ih ⟨?_, fun word member => ?_⟩ others
    · rw [offer_switches]
      exact held.1
    · rcases mem_offer member with rfl | known
      · exact here.1
      · exact held.2 word known

theorem looks (kept : Invariant holds allowed) {texts : List Text} {arguments : List Argument}
    (all : ∀ t ∈ texts, allowed t) (looked : form.looks texts = .ok arguments) :
    ∀ argument ∈ arguments, argument.Allowed allowed := by
  induction texts generalizing arguments with
  | nil =>
    cases looked
    exact fun _ member => absurd member List.not_mem_nil
  | cons t rest ih =>
    obtain ⟨here, others⟩ := List.forall_mem_cons.mp all
    rcases looks_cons looked with ⟨_, rfl⟩ | ⟨look, found, _, own, more, rfl⟩
    · refine List.forall_mem_cons.mpr ⟨⟨here, fun _ _ same => by cases same⟩, fun argument member => ?_⟩
      obtain ⟨word, listed, rfl⟩ := List.mem_map.mp member
      exact ⟨others word listed, fun _ _ same => by cases same⟩
    · refine List.forall_mem_cons.mpr ⟨⟨here, fun flag value same => ?_⟩, ih others more⟩
      cases same
      exact kept.suffix here (suffix_of_look own)

theorem takeForm (kept : Invariant holds allowed) {texts : List Text} {taken : Taken}
    (all : ∀ t ∈ texts, allowed t) (formed : Command.takeForm form texts = .ok taken) :
    Held holds allowed taken := by
  unfold Command.takeForm at formed
  split at formed
  · cases formed
  next arguments looked =>
    exact kept.takes ⟨kept.unset, fun _ member => absurd member List.not_mem_nil⟩
      (kept.looks all looked) (takes_of_takeArguments formed)

/-- What is read of a command line: switches that keep what holds, and patterns that are arguments. -/
theorem read (kept : Invariant holds allowed) {texts : List Text} {i : Invocation}
    (all : ∀ t ∈ texts, allowed t) (parsed : Invocation.read texts = .ok i) :
    holds i.switches ∧ ∀ patterns withTypes esm,
      i.command = .generateBundles patterns withTypes esm → ∀ pattern ∈ patterns, allowed pattern := by
  obtain ⟨taken, formed, commanded⟩ := bind_ok.mp parsed
  obtain ⟨now, words⟩ := kept.takeForm all formed
  unfold Invocation.readCommand at commanded
  split at commanded
  · cases commanded
  next name arguments named =>
    split at commanded
    · cases commanded
    obtain ⟨inner, own, commanded⟩ := bind_ok.mp commanded
    obtain ⟨command, chosen, commanded⟩ := bind_ok.mp commanded
    dsimp only at commanded
    split at commanded
    · cases commanded
      refine ⟨now, fun patterns withTypes esm same pattern member => ?_⟩
      have inside := kept.takeForm (fun t listed => words t (named ▸ List.mem_cons_of_mem name listed)) own
      unfold Chosen.ofTaken at chosen
      split at chosen
      · cases chosen
        cases same
      · cases chosen
        cases same
      · split at chosen
        · cases chosen
        · cases chosen
          cases same
          exact inside.2 pattern (List.erase_subset member)
    · cases commanded

end Invariant

/-- What a flag does to the format and to the working directory. -/
theorem take_cases {form : Form} {s next : Switches} {value : Option Text} {flag : Flag}
    (taken : s.take form value flag = .ok next) :
    (next.format = s.format ∨ ∀ t, next.format = some t → t ∈ Switches.formats) ∧
      (next.workdir = s.workdir ∨ next.workdir = value) := by
  cases flag with
  | help | version => cases taken
  | format =>
    cases value with
    | none =>
      cases taken
      exact ⟨.inr fun _ given => (by cases given), .inl rfl⟩
    | some t =>
      rw [Switches.take] at taken
      split at taken
      next listed =>
        cases taken
        refine ⟨.inr fun t' given => ?_, .inl rfl⟩
        cases given
        exact List.contains_iff_mem.mp listed
      · cases taken
  | workdir =>
    cases taken
    exact ⟨.inl rfl, .inr rfl⟩
  | verbose | quiet =>
    rw [Switches.take] at taken
    split at taken
    · cases taken
    · cases taken
      exact ⟨.inl rfl, .inl rfl⟩
  | json | runId | config | dryRun | logJson | withTypes | esm =>
    cases taken
    exact ⟨.inl rfl, .inl rfl⟩

/-- Switches that name no format but those that there are. -/
def Switches.Known (s : Switches) : Prop := ∀ t, s.format = some t → t ∈ Switches.formats

theorem known_invariant : Invariant Switches.Known fun _ => True where
  unset _ given := by cases given
  take known _ taken := by
    rcases (take_cases taken).1 with same | listed
    · exact fun t given => known t (same ▸ given)
    · exact listed
  suffix _ _ := trivial

/-- Switches with a working directory that is passable, if one is given. -/
def Switches.Placed (s : Switches) : Prop := ∀ t, s.workdir = some t → t.Passable

theorem placed_invariant : Invariant Switches.Placed Text.Passable where
  unset _ given := by cases given
  take placed passable taken := by
    rcases (take_cases taken).2 with same | same
    · exact fun t given => placed t (same ▸ given)
    · exact fun t given => passable t (same ▸ given)
  suffix passable part := passable.of_subset part.subset

end Command

/-- A command line that can be read asks for no format but those that there are. -/
theorem Invocation.known_read {arguments : List Text} {i : Invocation}
    (parsed : Invocation.read arguments = .ok i) : i.switches.Known :=
  (Command.known_invariant.read (fun _ _ => trivial) parsed).1

end GrammarBundle
