import GrammarBundle.Proofs.Command.Readings

/-!
How the flag for JSON is written on a command line. It may be shortened, as long as no other flag starts
like it. What is written so is taken for the flag, unless it stands behind a divider, where it can only be a
pattern; and nothing else is taken for the flag.
-/

namespace GrammarBundle

theorem Text.prefix_of_cut {fragment t before after : Text}
    (cut : Text.cut? fragment t = some (before, after)) : before <+: t := by
  induction t generalizing before with
  | nil =>
    unfold Text.cut? at cut
    split at cut <;> cases cut
    exact List.prefix_refl _
  | cons p rest ih =>
    unfold Text.cut? at cut
    split at cut
    · cases cut
      exact List.nil_prefix
    · obtain ⟨⟨front, back⟩, found, same⟩ := Option.map_eq_some_iff.mp cut
      cases same
      exact List.cons_prefix_cons.mpr ⟨rfl, ih found⟩

namespace Command

/-- The ways to write the flag for JSON: a flag may be shortened as long as no other starts like it. -/
def jsonSpellings : List Text := ["--j", "--js", "--jso", "--json"]

section

variable {form : Form} {s next : Switches} {t : Text} {flag : Flag}

theorem name_of_named {name : Text} (listed : (name, flag) ∈ form.namedFlags) : name ∈ flag.names := by
  obtain ⟨own, _, named⟩ := List.mem_flatMap.mp listed
  obtain ⟨_, member, same⟩ := List.mem_map.mp named
  cases same
  exact member

theorem name_of_flagNamed {name : Text} (named : form.flagNamed? name = some flag) :
    name ∈ flag.names := by
  obtain ⟨⟨n, f⟩, found, rfl⟩ := Option.map_eq_some_iff.mp named
  have same := List.find?_some found
  obtain rfl : n = name := of_decide_eq_true same
  exact name_of_named (List.mem_of_find?_eq_some found)

/-- The flag for JSON has no short name: a text that may abbreviate it starts with two hyphens, and goes
on like it up to a value. -/
theorem stem_of_candidate {name : Text} {value : Option Text}
    (candidate : (name, Look.flag .json value) ∈ form.candidates t) :
    divider <+: t ∧ ∃ stem, Form.splitValue t = (stem, value) ∧ stem <+: Invocation.jsonFlag := by
  unfold Form.candidates at candidate
  split at candidate
  next marked =>
    refine ⟨List.isPrefixOf_iff_prefix.mp marked, ?_⟩
    cases attached : Form.splitValue t with
    | mk stem given =>
      rw [attached] at candidate
      obtain ⟨⟨full, flag⟩, listed, same⟩ := List.mem_map.mp candidate
      cases same
      obtain ⟨known, continued⟩ := List.mem_filter.mp listed
      obtain rfl := List.mem_singleton.mp (name_of_named known)
      exact ⟨stem, rfl, List.isPrefixOf_iff_prefix.mp continued⟩
  next short =>
    obtain ⟨⟨full, flag⟩, listed, same⟩ := List.mem_map.mp candidate
    cases same
    obtain ⟨known, short_name⟩ := List.mem_filter.mp listed
    obtain rfl := List.mem_singleton.mp (name_of_named known)
    have size := congrArg List.length (of_decide_eq_true short_name)
    rw [List.length_take] at size
    change 6 = _ at size
    omega

/-- A text that starts like the flag for JSON, and not like every other, is a way to write it. -/
theorem spelled_of_prefix (start : t <+: Invocation.jsonFlag) (marked : divider <+: t) (more : t ≠ divider) :
    t ∈ jsonSpellings := by
  have written : ∀ n ≤ 6, divider <+: Invocation.jsonFlag.take n → Invocation.jsonFlag.take n ≠ divider →
      Invocation.jsonFlag.take n ∈ jsonSpellings := by
    decide
  have size : t.length ≤ 6 := start.length_le
  rw [List.prefix_iff_eq_take.mp start] at marked more ⊢
  exact written _ size marked more

theorem prefix_of_splitValue {name value : Text} (attached : Form.splitValue t = (name, some value)) :
    name <+: t := by
  unfold Form.splitValue at attached
  split at attached
  next cut =>
    cases attached
    exact Text.prefix_of_cut cut
  · cases attached

theorem spelled_of_unnamed {value : Option Text} (more : t ≠ divider)
    (looks : form.lookOfUnnamed t = .ok (.flag .json value)) :
    divider <+: t ∧ (value = none → t ∈ jsonSpellings) := by
  unfold Form.lookOfUnnamed at looks
  split at looks
  next name look only =>
    cases looks
    obtain ⟨marked, stem, attached, start⟩ := stem_of_candidate (only ▸ List.mem_singleton_self _)
    refine ⟨marked, fun bare => ?_⟩
    subst bare
    unfold Form.splitValue at attached
    split at attached
    · cases attached
    · cases attached
      exact spelled_of_prefix start marked more
  · split at looks <;> cases looks
  · cases looks

/-- An argument that looks like the flag for JSON starts with two hyphens, and is a way to write the flag
if nothing is attached to it. -/
theorem spelled_of_look {value : Option Text} (more : t ≠ divider)
    (looks : form.lookOf t = .ok (.flag .json value)) :
    divider <+: t ∧ (value = none → t ∈ jsonSpellings) := by
  unfold Form.lookOf at looks
  split at looks
  · cases looks
  · split at looks
    next flag named =>
      cases looks
      obtain rfl := List.mem_singleton.mp (name_of_flagNamed named)
      decide
    · split at looks
      · cases looks
      · split at looks
        · exact spelled_of_unnamed more looks
        next name value attached =>
          split at looks
          next flag named =>
            cases looks
            obtain rfl := List.mem_singleton.mp (name_of_flagNamed named)
            exact ⟨List.IsPrefix.trans (by decide) (prefix_of_splitValue attached), fun bare => by cases bare⟩
          · exact spelled_of_unnamed more looks

/-- What the flag for JSON does, and no other flag. -/
theorem take_json {value : Option Text} (taken : s.take form value flag = .ok next) :
    next.json = (s.json || decide (flag = .json)) := by
  cases flag with
  | help | version => cases taken
  | format =>
    cases value with
    | none =>
      cases taken
      exact (Bool.or_false _).symm
    | some t =>
      rw [Switches.take] at taken
      split at taken
      · cases taken
        exact (Bool.or_false _).symm
      · cases taken
  | verbose | quiet =>
    rw [Switches.take] at taken
    split at taken
    · cases taken
    · cases taken
      exact (Bool.or_false _).symm
  | json =>
    cases taken
    exact (Bool.or_true _).symm
  | workdir | runId | config | dryRun | logJson | withTypes | esm =>
    cases taken
    exact (Bool.or_false _).symm

theorem takeAll_json {flags : List Flag} (other : .json ∉ flags)
    (taken : s.takeAll form flags = .ok next) : next.json = s.json := by
  induction flags generalizing s with
  | nil =>
    cases taken
    rfl
  | cons flag flags ih =>
    rw [List.mem_cons, not_or] at other
    rw [Switches.takeAll] at taken
    split at taken
    · cases taken
    next middle one =>
      rw [ih other.2 taken, take_json one, decide_eq_false (Ne.symm other.1), Bool.or_false]

/-- Among the flags behind one hyphen the one for JSON can only be the first, having no short name. -/
theorem other_of_cluster {flags : List Flag} (other : flag ≠ .json)
    (clustered : Switches.cluster form flag t = .ok flags) : .json ∉ flags := by
  induction t generalizing flag flags with
  | nil =>
    cases clustered
    rw [List.mem_singleton]
    exact other.symm
  | cons letter rest ih =>
    unfold Switches.cluster at clustered
    split at clustered
    · cases clustered
    next next named =>
      have short : next ≠ .json := by
        rintro rfl
        have size := congrArg List.length (List.mem_singleton.mp (name_of_flagNamed named))
        cases size
      cases more : Switches.cluster form next rest with
      | error fault =>
        rw [more] at clustered
        cases clustered
      | ok found =>
        rw [more] at clustered
        cases clustered
        rw [List.mem_cons, not_or]
        exact ⟨other.symm, ih short more⟩

theorem takeAttached_json {given value : Text} (long : flag = .json → divider <+: given)
    (taken : s.takeAttached form given flag value = .ok next) : next.json = s.json := by
  unfold Switches.takeAttached at taken
  split at taken
  next valued =>
    have other : flag ≠ .json := by
      rintro rfl
      cases valued
    rw [take_json taken, decide_eq_false other, Bool.or_false]
  · split at taken
    next short =>
      have other : flag ≠ .json := by
        intro same
        rw [Switches.isShort, List.isPrefixOf_iff_prefix.mpr (long same)] at short
        cases short.1
      split at taken
      · cases taken
      next clustered => exact takeAll_json (other_of_cluster other clustered) taken
    · cases taken

end

/-- What the looks of an argument say about the flag for JSON. -/
def Argument.Told (argument : Argument) : Prop :=
  ∀ value, argument.look = .flag .json value →
    divider <+: argument.text ∧ (value = none → argument.text ∈ jsonSpellings)

/-- What is taken is drawn from arguments: the flag for JSON from a way to write it, and words from texts. -/
structure Drawn (taken after : Taken) (arguments : List Argument) : Prop where
  json : after.switches.json = true →
    taken.switches.json = true ∨ ∃ a ∈ arguments, a.text ∈ jsonSpellings
  words : ∀ word ∈ after.words, word ∈ taken.words ∨ ∃ a ∈ arguments, a.text = word

theorem Drawn.step {taken middle after : Taken} {argument : Argument} {rest : List Argument}
    (json : middle.switches.json = true →
      taken.switches.json = true ∨ argument.text ∈ jsonSpellings)
    (words : ∀ word ∈ middle.words, word ∈ taken.words ∨ argument.text = word)
    (later : Drawn middle after rest) : Drawn taken after (argument :: rest) where
  json given := by
    rcases later.json given with set | ⟨found, member, spelled⟩
    · exact (json set).imp_right fun spelled => ⟨argument, List.mem_cons_self, spelled⟩
    · exact .inr ⟨found, List.mem_cons_of_mem _ member, spelled⟩
  words word member := by
    rcases later.words word member with known | ⟨found, member, same⟩
    · exact (words word known).imp_right fun same => ⟨argument, List.mem_cons_self, same⟩
    · exact .inr ⟨found, List.mem_cons_of_mem _ member, same⟩

/-- A flag that is taken for an argument draws no words. -/
theorem Drawn.switch {taken after : Taken} {argument : Argument} {rest : List Argument}
    {switches : Switches}
    (json : switches.json = true → taken.switches.json = true ∨ argument.text ∈ jsonSpellings)
    (later : Drawn { taken.interrupted with switches } after rest) :
    Drawn taken after (argument :: rest) := by
  refine .step json (fun word known => .inl ?_) later
  rw [← interrupted_words]
  exact known

/-- Nothing is drawn from elsewhere than the arguments. -/
theorem drawn_of_takes {form : Form} {taken after : Taken} {arguments : List Argument}
    (told : ∀ argument ∈ arguments, argument.Told) (takes : Takes form taken arguments after) :
    Drawn taken after arguments := by
  induction takes with
  | done => exact ⟨.inl, fun _ => .inl⟩
  | stranger _ ih =>
    refine .step (fun set => .inl ?_) (fun _ known => .inl ?_) (ih (List.forall_mem_cons.mp told).2)
    · rw [Taken.leave, interrupted_switches] at set
      exact set
    · rw [Taken.leave, interrupted_words] at known
      exact known
  | @attached _ _ text value flag _ _ attached _ ih =>
    obtain ⟨here, others⟩ := List.forall_mem_cons.mp told
    have long (same : flag = .json) : divider <+: text := (here (some value) (same ▸ rfl)).1
    exact .switch (fun set => .inl (takeAttached_json long attached ▸ set)) (ih others)
  | valued valued one _ ih =>
    have others := (List.forall_mem_cons.mp (List.forall_mem_cons.mp told).2).2
    refine .step .inl (fun _ => .inl) (.switch (fun set => .inl ?_) (ih others))
    rw [take_json one] at set
    refine ((Bool.or_eq_true _ _).mp set).resolve_right fun own => ?_
    rw [of_decide_eq_true own] at valued
    cases valued
  | plain one _ ih =>
    obtain ⟨here, others⟩ := List.forall_mem_cons.mp told
    refine .switch (fun set => ?_) (ih others)
    rw [take_json one, Bool.or_eq_true, decide_eq_true_eq] at set
    refine set.imp_right fun own => ?_
    subst own
    exact (here none rfl).2 rfl
  | @command _ t look rest _ =>
    refine ⟨.inl, fun word member => .inr ?_⟩
    exact List.mem_map.mp (show word ∈ (⟨t, look⟩ :: rest : List Argument).map Argument.text from member)
  | offered _ ih =>
    refine .step (fun set => .inl ?_) (fun word known => ?_) (ih (List.forall_mem_cons.mp told).2)
    · rw [offer_switches] at set
      exact set
    · exact (mem_offer known).symm.imp_right Eq.symm

/-- Arguments among which a text is a word only after a divider; before it the text is the flag for JSON, if
the form has it, and otherwise a stranger. -/
inductive Tracked (form : Form) (t : Text) : List Argument → Prop
  | nil : Tracked form t []
  | divided {mark : Text} {rest : List Argument} : (∀ a ∈ rest, a.look = .word) →
      Tracked form t (⟨mark, .divider⟩ :: rest)
  | flags {argument : Argument} {rest : List Argument} :
      (argument.text = t → argument.look = .flag .json none ∧ .json ∈ form.flags ∨
        argument.look = .stranger) →
      Tracked form t rest → Tracked form t (argument :: rest)

/-- A text is accounted for in what is taken so far: it was the flag for JSON, it is a pattern, or nothing
takes it. -/
def Accounted (form : Form) (t : Text) (taken : Taken) : Prop :=
  (taken.switches.json = true ∧ .json ∈ form.flags) ∨
    (form.intake = .patterns ∧ taken.phase ≠ .before ∧ t ∈ taken.words) ∨ t ∈ taken.extras

/-- A text is accounted for when all is taken. -/
def Ended (form : Form) (t : Text) (taken : Taken) : Prop :=
  (taken.switches.json = true ∧ .json ∈ form.flags) ∨
    (form.intake ≠ .nothing ∧ t ∈ taken.words) ∨ t ∈ taken.extras

section

variable {form : Form} {t u : Text} {taken after : Taken} {argument : Argument}
  {arguments rest : List Argument}

theorem Tracked.head {look : Look} (tracked : Tracked form t (⟨t, look⟩ :: rest)) :
    look = .divider ∨ look = .flag .json none ∧ .json ∈ form.flags ∨ look = .stranger := by
  cases tracked with
  | divided _ => exact .inl rfl
  | flags looks => exact .inr (looks rfl)

/-- What is left of tracked arguments: they are tracked, or all of them stand behind the divider. -/
def Followed (form : Form) (t : Text) (arguments : List Argument) : Prop :=
  Tracked form t arguments ∨ ∀ a ∈ arguments, a.look = .word

theorem Followed.tail (followed : Followed form t (argument :: rest)) : Followed form t rest := by
  rcases followed with tracked | words
  · cases tracked with
    | divided words => exact .inr words
    | flags _ later => exact .inl later
  · exact .inr (List.forall_mem_cons.mp words).2

theorem Followed.flag {flag : Flag} {value : Option Text}
    (followed : Followed form t (⟨t, .flag flag value⟩ :: rest)) :
    flag = .json ∧ value = none ∧ .json ∈ form.flags := by
  rcases followed with tracked | words
  · rcases tracked.head with same | ⟨same, known⟩ | same
    · cases same
    · cases same
      exact ⟨rfl, rfl, known⟩
    · cases same
  · cases words _ List.mem_cons_self

/-- The word after a flag stands before the divider. -/
theorem Followed.value {flag : Flag} {value : Option Text} {text : Text}
    (followed : Followed form t (⟨text, .flag flag value⟩ :: ⟨u, .word⟩ :: rest)) : u ≠ t := by
  rintro rfl
  rcases followed with tracked | words
  · cases tracked with
    | flags _ later =>
      rcases later.head with same | ⟨same, _⟩ | same <;> cases same
  · cases words _ List.mem_cons_self

theorem Accounted.ended (accounted : Accounted form t taken) : Ended form t taken :=
  accounted.imp_right fun kept => kept.imp_left fun pattern =>
    ⟨fun none_taken => (by cases none_taken.symm.trans pattern.1), pattern.2.2⟩

theorem Accounted.interrupted (accounted : Accounted form t taken) :
    Accounted form t taken.interrupted := by
  unfold Taken.interrupted
  split
  · refine accounted.imp_right fun kept => kept.imp_left fun pattern => ⟨pattern.1, ?_, pattern.2.2⟩
    intro same
    cases same
  · exact accounted

theorem Accounted.switched {switches : Switches} (accounted : Accounted form t taken)
    (kept : taken.switches.json = true → switches.json = true) :
    Accounted form t { taken.interrupted with switches } := by
  refine accounted.interrupted.imp_left fun given => ⟨kept ?_, given.2⟩
  rw [← interrupted_switches]
  exact given.1

theorem Accounted.leave (accounted : Accounted form t taken ∨ u = t) :
    Accounted form t (taken.leave u) := by
  rcases accounted with (given | pattern | extra) | rfl
  · exact .inl given
  · exact .inr (.inl pattern)
  · exact .inr (.inr (List.mem_append_left _ extra))
  · exact .inr (.inr (List.mem_append_right _ List.mem_cons_self))

theorem Accounted.offer {startsNone : Bool} (accounted : Accounted form t taken ∨ u = t) :
    Accounted form t (taken.offer form u startsNone) := by
  unfold Taken.offer
  split
  next patterns before =>
    split
    · exact .leave accounted
    · rcases accounted with (given | pattern | extra) | rfl
      · exact .inl given
      · exact absurd before pattern.2.1
      · exact .inr (.inr extra)
      · refine .inr (.inl ⟨patterns, fun same => ?_, List.mem_cons_self⟩)
        cases same
  next patterns during =>
    rcases accounted with (given | pattern | extra) | rfl
    · exact .inl given
    · exact .inr (.inl ⟨patterns, pattern.2.1, List.mem_append_left _ pattern.2.2⟩)
    · exact .inr (.inr extra)
    · refine .inr (.inl ⟨patterns, ?_, List.mem_append_right _ List.mem_cons_self⟩)
      rw [during]
      decide
  · exact .leave accounted

/-- A text to account for: it is accounted for, or stands among the arguments that are left. -/
def Open (form : Form) (t : Text) (taken : Taken) (arguments : List Argument) : Prop :=
  Accounted form t taken ∨ ∃ a ∈ arguments, a.text = t

theorem Open.next (opened : Open form t taken (argument :: rest))
    (step : Accounted form t taken ∨ argument.text = t → Accounted form t after) :
    Open form t after rest := by
  rcases opened with accounted | ⟨found, member, same⟩
  · exact .inl (step (.inl accounted))
  · rcases List.mem_cons.mp member with rfl | later
    · exact .inl (step (.inr same))
    · exact .inr ⟨found, later, same⟩

/-- A text that is tracked among arguments is accounted for when they are taken. -/
theorem ended_of_takes (told : ∀ argument ∈ arguments, argument.Told) (followed : Followed form t arguments)
    (opened : Open form t taken arguments) (takes : Takes form taken arguments after) :
    Ended form t after := by
  induction takes with
  | done =>
    rcases opened with accounted | ⟨_, member, _⟩
    · exact accounted.ended
    · cases member
  | stranger _ ih =>
    refine ih (List.forall_mem_cons.mp told).2 followed.tail (opened.next fun found => ?_)
    exact .leave (found.imp_left .interrupted)
  | @attached _ _ text value flag _ _ attached _ ih =>
    obtain ⟨here, others⟩ := List.forall_mem_cons.mp told
    have long (same : flag = .json) : divider <+: text := (here (some value) (same ▸ rfl)).1
    refine ih others followed.tail (opened.next fun found => ?_)
    rcases found with accounted | rfl
    · exact accounted.switched fun set => (takeAttached_json long attached).trans set
    · cases followed.flag.2.1
  | @valued taken _ _ value _ rest _ valued one _ ih =>
    have others := (List.forall_mem_cons.mp (List.forall_mem_cons.mp told).2).2
    have now : Open form t taken (⟨value, .word⟩ :: rest) := opened.next fun found => by
      rcases found with accounted | rfl
      · exact accounted
      · rw [followed.flag.1] at valued
        cases valued
    refine ih others followed.tail.tail (now.next fun found => ?_)
    rcases found with accounted | same
    · refine accounted.switched fun set => ?_
      rw [take_json one, set]
      rfl
    · exact absurd same followed.value
  | @plain _ _ _ _ _ switches one _ ih =>
    refine ih (List.forall_mem_cons.mp told).2 followed.tail (opened.next fun found => ?_)
    rcases found with accounted | rfl
    · refine accounted.switched fun set => ?_
      rw [take_json one, set]
      rfl
    · obtain ⟨own, _, known⟩ := followed.flag
      refine .inl ⟨?_, known⟩
      change switches.json = true
      rw [take_json one, own]
      exact Bool.or_true _
  | command commanded =>
    rcases opened with (given | pattern | extra) | ⟨found, member, rfl⟩
    · exact .inl given
    · cases commanded.symm.trans pattern.1
    · exact .inr (.inr extra)
    · refine .inr (.inl ⟨fun none_taken => ?_, List.mem_map_of_mem member⟩)
      cases commanded.symm.trans none_taken
  | offered _ ih =>
    exact ih (List.forall_mem_cons.mp told).2 followed.tail (opened.next Accounted.offer)

theorem told_of_looks {texts : List Text} (looked : form.looks texts = .ok arguments) :
    ∀ argument ∈ arguments, argument.Told := by
  induction texts generalizing arguments with
  | nil =>
    cases looked
    exact fun _ member => absurd member List.not_mem_nil
  | cons u texts ih =>
    rcases looks_cons looked with ⟨_, rfl⟩ | ⟨look, rest, other, own, more, rfl⟩
    · refine List.forall_mem_cons.mpr ⟨fun _ same => (by cases same), fun argument member => ?_⟩
      obtain ⟨word, _, rfl⟩ := List.mem_map.mp member
      exact fun _ same => by cases same
    · refine List.forall_mem_cons.mpr ⟨fun value same => ?_, ih more⟩
      cases same
      exact spelled_of_look other own

theorem texts_of_looks {texts : List Text} (looked : form.looks texts = .ok arguments) :
    arguments.map Argument.text = texts := by
  induction texts generalizing arguments with
  | nil =>
    cases looked
    rfl
  | cons u texts ih =>
    rcases looks_cons looked with ⟨_, rfl⟩ | ⟨look, rest, _, _, more, rfl⟩
    · rw [List.map_cons, List.map_map]
      exact congrArg _ (List.map_id texts)
    · rw [List.map_cons, ih more]

/-- Every form takes a way to write the flag for JSON for that flag, or it does not know it. -/
theorem lookOf_spelled (form : Form) (spelled : t ∈ jsonSpellings) :
    form.lookOf t = .ok (.flag .json none) ∧ .json ∈ form.flags ∨ form.lookOf t = .ok .stranger := by
  simp only [jsonSpellings, List.mem_cons, List.not_mem_nil, or_false] at spelled
  cases form with
  | generateBundles =>
    right
    rcases spelled with rfl | rfl | rfl | rfl <;> rfl
  | program | version | doctor =>
    left
    rcases spelled with rfl | rfl | rfl | rfl <;> exact ⟨rfl, by decide⟩

theorem tracked_of_looks {texts : List Text} (spelled : t ∈ jsonSpellings)
    (looked : form.looks texts = .ok arguments) : Tracked form t arguments := by
  induction texts generalizing arguments with
  | nil =>
    cases looked
    exact .nil
  | cons u texts ih =>
    rcases looks_cons looked with ⟨_, rfl⟩ | ⟨look, rest, _, own, more, rfl⟩
    · refine .divided fun argument member => ?_
      obtain ⟨word, _, rfl⟩ := List.mem_map.mp member
      rfl
    · refine .flags (fun same => ?_) (ih more)
      dsimp only at same
      rcases lookOf_spelled form spelled with ⟨looks, known⟩ | looks
      · rw [same, looks] at own
        exact .inl ⟨(Except.ok.inj own).symm, known⟩
      · rw [same, looks] at own
        exact .inr (Except.ok.inj own).symm

/-- Of a command line, too, nothing is drawn from elsewhere. -/
theorem drawn_of_takeForm {texts : List Text} (formed : takeForm form texts = .ok taken) :
    (taken.switches.json = true → ∃ t ∈ texts, t ∈ jsonSpellings) ∧
      ∀ word ∈ taken.words, word ∈ texts := by
  unfold takeForm at formed
  split at formed
  · cases formed
  next arguments looked =>
    have drawn := drawn_of_takes (told_of_looks looked) (takes_of_takeArguments formed)
    have listed (a : Argument) (member : a ∈ arguments) : a.text ∈ texts :=
      texts_of_looks looked ▸ List.mem_map_of_mem member
    refine ⟨fun given => ?_, fun word member => ?_⟩
    · rcases drawn.json given with set | ⟨a, member, spelled⟩
      · cases set
      · exact ⟨a.text, listed a member, spelled⟩
    · rcases drawn.words word member with known | ⟨a, inside, rfl⟩
      · cases known
      · exact listed a inside

theorem ended_of_takeForm {texts : List Text} (spelled : t ∈ jsonSpellings) (member : t ∈ texts)
    (formed : takeForm form texts = .ok taken) : Ended form t taken := by
  unfold takeForm at formed
  split at formed
  · cases formed
  next looked =>
    rw [← texts_of_looks looked] at member
    obtain ⟨argument, inside, same⟩ := List.mem_map.mp member
    exact ended_of_takes (told_of_looks looked) (.inl (tracked_of_looks spelled looked))
      (.inr ⟨argument, inside, same⟩) (takes_of_takeArguments formed)

end

/-- Whether the arguments of a command asked for JSON. -/
def Chosen.hasJson : Chosen → Bool
  | .generateBundles _ _ _ => false
  | .version json => json
  | .doctor json => json

def Chosen.patterns : Chosen → List Text
  | .generateBundles patterns _ _ => patterns
  | _ => []

end Command

namespace Invocation

open Command

/-- Whether the flag for JSON was given, to the program or to its command. -/
def hasJson (i : Invocation) : Bool := i.switches.json || i.command.hasJson

/-- A command line that was read: the program takes its flags and a command, whose form takes the rest. -/
structure Reading (arguments : List Text) (i : Invocation) where
  outer : Taken
  inner : Taken
  name : Text
  rest : List Text
  form : Form
  program : takeForm .program arguments = .ok outer
  words : outer.words = name :: rest
  named : Form.ofCommand? name = some form
  command : takeForm form rest = .ok inner
  chosen : Chosen.ofTaken form inner = .ok i.command
  switches : i.switches = outer.switches
  extras : outer.extras = [] ∧ inner.extras = []

section

variable {arguments : List Text} {i : Invocation} {t : Text}

theorem reading_of_read (parsed : read arguments = .ok i) : Nonempty (Reading arguments i) := by
  obtain ⟨taken, formed, commanded⟩ := bind_ok.mp parsed
  unfold readCommand at commanded
  split at commanded
  · cases commanded
  next name rest words =>
    split at commanded
    · cases commanded
    next form named =>
      obtain ⟨inner, own, commanded⟩ := bind_ok.mp commanded
      obtain ⟨command, chosen, commanded⟩ := bind_ok.mp commanded
      dsimp only at commanded
      split at commanded
      next none_left =>
        cases commanded
        exact ⟨taken, inner, name, rest, form, formed, words, named, own, chosen, rfl,
          List.append_eq_nil_iff.mp none_left⟩
      · cases commanded

theorem form_cases {name : Text} {form : Form} (named : Form.ofCommand? name = some form) :
    name ∉ jsonSpellings ∧ form ≠ .program := by
  unfold Form.ofCommand? at named
  split at named
  next same =>
    cases named
    rcases same with rfl | rfl <;> decide
  · split at named
    next same =>
      cases named
      subst same
      decide
    · split at named
      next same =>
        cases named
        subst same
        decide
      · cases named

/-- What a command makes of a text that its form accounts for. -/
theorem chosen_of_ended {form : Form} {inner : Taken} {command : Chosen} (known : form ≠ .program)
    (chosen : Chosen.ofTaken form inner = .ok command) (spelled : t ∈ jsonSpellings)
    (none_left : inner.extras = []) (ended : Ended form t inner) :
    command.hasJson = true ∨ t ∈ command.patterns := by
  rcases ended with ⟨set, flagged⟩ | ⟨taken, word⟩ | extra
  · cases form with
    | program => exact absurd rfl known
    | generateBundles => exact absurd flagged (by decide)
    | version | doctor =>
      cases chosen
      exact .inl set
  · cases form with
    | program => exact absurd rfl known
    | generateBundles =>
      change (if inner.words = [] then _ else _) = _ at chosen
      split at chosen
      · cases chosen
      · cases chosen
        have other : t ≠ divider := by
          rintro rfl
          exact absurd spelled (by decide)
        exact .inr ((List.mem_erase_of_ne other).mpr word)
    | version | doctor => exact absurd rfl taken
  · rw [none_left] at extra
    cases extra

/-- A way to write the flag for JSON among the arguments was taken for that flag, or for a pattern. -/
theorem hasJson_or_pattern (parsed : read arguments = .ok i) (spelled : t ∈ jsonSpellings)
    (member : t ∈ arguments) : i.hasJson = true ∨ t ∈ i.command.patterns := by
  obtain ⟨reading⟩ := reading_of_read parsed
  obtain ⟨unnamed, known⟩ := form_cases reading.named
  rw [hasJson, reading.switches, Bool.or_eq_true, or_assoc]
  rcases ended_of_takeForm spelled member reading.program with ⟨set, _⟩ | ⟨_, word⟩ | extra
  · exact .inl set
  · right
    rw [reading.words] at word
    rcases List.mem_cons.mp word with rfl | inside
    · exact absurd spelled unnamed
    · exact chosen_of_ended known reading.chosen spelled reading.extras.2
        (ended_of_takeForm spelled inside reading.command)
  · rw [reading.extras.1] at extra
    cases extra

theorem set_of_chosen {form : Form} {inner : Taken} {command : Chosen}
    (chosen : Chosen.ofTaken form inner = .ok command) (given : command.hasJson = true) :
    inner.switches.json = true := by
  unfold Chosen.ofTaken at chosen
  split at chosen
  · cases chosen
    exact given
  · cases chosen
    exact given
  · split at chosen
    · cases chosen
    · cases chosen
      cases given

/-- The flag for JSON was given only if an argument is a way to write it. -/
theorem spelled_of_hasJson (parsed : read arguments = .ok i) (given : i.hasJson = true) :
    ∃ t ∈ arguments, t ∈ jsonSpellings := by
  obtain ⟨reading⟩ := reading_of_read parsed
  rw [hasJson, reading.switches, Bool.or_eq_true] at given
  rcases given with outer | inner
  · exact (drawn_of_takeForm reading.program).1 outer
  · obtain ⟨t, member, spelled⟩ :=
      (drawn_of_takeForm reading.command).1 (set_of_chosen reading.chosen inner)
    have word : t ∈ reading.outer.words := reading.words ▸ List.mem_cons_of_mem _ member
    exact ⟨t, (drawn_of_takeForm reading.program).2 t word, spelled⟩

end

end Invocation

end GrammarBundle
