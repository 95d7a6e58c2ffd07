import GrammarBundle.Proofs.Engine.Requests
import GrammarBundle.Proofs.Json.Compact

/-!
Values as reading makes them: the names of an object are distinct, no number is too long, and no text has
a high surrogate with a low one next to it, because two such escapes are read as one character. Such a
value, if its numbers are whole, is read back from its compact form as it is.
-/

namespace GrammarBundle

theorem Text.surrogateFree_of_suffix {s t : Text} (free : t.surrogateFree = true) (part : s <:+ t) :
    s.surrogateFree = true := by
  rw [surrogateFree, List.all_eq_true] at free ⊢
  intro p member
  exact free p (part.subset member)

namespace Members

variable {name : Text} {value : Json} {front members settings : Members}

theorem mem_put {member : Text × Json} (inside : member ∈ put name value members) :
    member = (name, value) ∨ member ∈ members := by
  induction members with
  | nil => exact .inl (List.mem_singleton.mp inside)
  | cons first rest ih =>
    obtain ⟨key, old⟩ := first
    rw [put] at inside
    split at inside
    next same =>
      subst same
      rcases List.mem_cons.mp inside with rfl | later
      · exact .inl rfl
      · exact .inr (List.mem_cons_of_mem _ later)
    · rcases List.mem_cons.mp inside with rfl | later
      · exact .inr List.mem_cons_self
      · exact (ih later).imp_right (List.mem_cons_of_mem _)

theorem nodup_put (distinct : (members.map (·.1)).Nodup) :
    ((put name value members).map (·.1)).Nodup := by
  induction members with
  | nil => simp [put]
  | cons first rest ih =>
    obtain ⟨key, old⟩ := first
    rw [List.map_cons, List.nodup_cons] at distinct
    rw [put]
    split
    · exact List.nodup_cons.mpr distinct
    next other =>
      refine List.nodup_cons.mpr ⟨?_, ih distinct.2⟩
      intro again
      obtain ⟨member, inside, same⟩ := List.mem_map.mp again
      rcases mem_put inside with rfl | old_member
      · exact other same.symm
      · exact distinct.1 (List.mem_map.mpr ⟨member, old_member, same⟩)

theorem put_fresh (fresh : name ∉ members.map (·.1)) :
    put name value members = members ++ [(name, value)] := by
  induction members with
  | nil => rfl
  | cons first rest ih =>
    obtain ⟨key, old⟩ := first
    rw [List.map_cons, List.mem_cons, not_or] at fresh
    rw [put, if_neg (Ne.symm fresh.1), ih fresh.2, List.cons_append]

theorem mem_putAll {member : Text × Json} (inside : member ∈ putAll settings members) :
    member ∈ settings ∨ member ∈ members := by
  induction settings generalizing members with
  | nil => exact .inr inside
  | cons first rest ih =>
    rcases ih inside with later | earlier
    · exact .inl (List.mem_cons_of_mem _ later)
    · rcases mem_put earlier with rfl | old
      · exact .inl List.mem_cons_self
      · exact .inr old

theorem nodup_putAll (distinct : (members.map (·.1)).Nodup) :
    ((putAll settings members).map (·.1)).Nodup := by
  induction settings generalizing members with
  | nil => exact distinct
  | cons first rest ih => exact ih (nodup_put distinct)

theorem putAll_distinct (distinct : ((front ++ members).map (·.1)).Nodup) :
    putAll members front = front ++ members := by
  induction members generalizing front with
  | nil => exact (List.append_nil front).symm
  | cons first rest ih =>
    obtain ⟨key, v⟩ := first
    have fresh : key ∉ front.map (·.1) := by
      intro member
      rw [List.map_append, List.nodup_append] at distinct
      exact distinct.2.2 key member key List.mem_cons_self rfl
    have next : front ++ (key, v) :: rest = front ++ [(key, v)] ++ rest := by simp
    rw [next] at distinct ⊢
    rw [← ih distinct, ← put_fresh fresh]
    rfl

/-- Settings of distinct names are the members that they make. -/
theorem ofSettings_distinct (distinct : (members.map (·.1)).Nodup) : ofSettings members = members :=
  putAll_distinct distinct

end Members

namespace Json

mutual

/-- A value as reading makes it. -/
def Received : Json → Prop
  | .int n => (Text.ofNat n.natAbs).length ≤ digitLimit
  | .str t => t.paired = t
  | .list items => ReceivedItems items
  | .object members => (members.map (·.1)).Nodup ∧ ReceivedMembers members
  | _ => True

def ReceivedItems : List Json → Prop
  | [] => True
  | v :: rest => Received v ∧ ReceivedItems rest

def ReceivedMembers : List (Text × Json) → Prop
  | [] => True
  | (k, v) :: rest => k.paired = k ∧ Received v ∧ ReceivedMembers rest

end

theorem receivedItems_iff {items : List Json} :
    ReceivedItems items ↔ ∀ v ∈ items, v.Received := by
  induction items with
  | nil => simp [ReceivedItems]
  | cons v rest ih => simp [ReceivedItems, ih]

theorem receivedMembers_iff {members : List (Text × Json)} :
    ReceivedMembers members ↔ ∀ m ∈ members, m.1.paired = m.1 ∧ m.2.Received := by
  induction members with
  | nil => simp [ReceivedMembers]
  | cons m rest ih =>
    obtain ⟨k, v⟩ := m
    simp [ReceivedMembers, ih, and_assoc]

mutual

theorem readable_of_received {v : Json} (received : v.Received) (whole : v.Whole) : v.Readable := by
  match v with
  | .null => trivial
  | .bool _ => trivial
  | .int n => exact received
  | .float _ => exact whole
  | .str _ => trivial
  | .list items => exact readableItems_of_received received whole
  | .object members => exact readableMembers_of_received received.2 whole

theorem readableItems_of_received {items : List Json} (received : ReceivedItems items)
    (whole : WholeItems items) : ReadableItems items := by
  match items with
  | [] => trivial
  | v :: rest =>
    exact ⟨readable_of_received received.1 whole.1, readableItems_of_received received.2 whole.2⟩

theorem readableMembers_of_received {members : List (Text × Json)}
    (received : ReceivedMembers members) (whole : WholeMembers members) :
    ReadableMembers members := by
  match members with
  | [] => trivial
  | (k, v) :: rest =>
    exact ⟨readable_of_received received.2.1 whole.1,
      readableMembers_of_received received.2.2 whole.2⟩

end

mutual

theorem paired_of_received {v : Json} (received : v.Received) : v.paired = v := by
  match v with
  | .null => rfl
  | .bool _ => rfl
  | .int _ => rfl
  | .float _ => rfl
  | .str t => exact congrArg Json.str received
  | .list items => exact congrArg Json.list (pairedItems_of_received received)
  | .object members =>
    rw [paired, pairedMembers_of_received received.2, Members.ofSettings_distinct received.1]

theorem pairedItems_of_received {items : List Json} (received : ReceivedItems items) :
    pairedItems items = items := by
  match items with
  | [] => rfl
  | v :: rest =>
    rw [pairedItems, paired_of_received received.1, pairedItems_of_received received.2]

theorem pairedMembers_of_received {members : List (Text × Json)}
    (received : ReceivedMembers members) : pairedMembers members = members := by
  match members with
  | [] => rfl
  | (k, v) :: rest =>
    rw [pairedMembers, received.1, paired_of_received received.2.1,
      pairedMembers_of_received received.2.2]

end

/-- A value as reading makes it, if its numbers are whole, is read back from its compact form. -/
theorem read_compact {v : Json} (received : v.Received) (whole : v.Whole) :
    read v.compact = .ok v := by
  rw [compact, read_write legible_compact (readable_of_received received whole),
    paired_of_received received]

/-- What an escape is read as: a character, or a unit by itself. A high unit by itself is followed by no
escape of a low one. -/
inductive Escaped : Text → CodePoint → Nat → Prop
  | char {t p} {count : Nat} (char : p.isSurrogate = false) : Escaped t p count
  | unit {digits : Text} {n : Nat} (read : fourHex? digits = some n)
      (single : (CodePoint.ofNat n).isHigh = true → ∀ second,
        digits.drop 4 = .char '\\' :: .char 'u' :: second → 4 < second.length →
          ∃ m, fourHex? second = some m ∧ (CodePoint.ofNat m).isLow = false) :
      Escaped (.char 'u' :: digits) (.ofNat n) 5

section

variable {start backslash t rest body : Text} {p q : CodePoint} {count : Nat}

/-- No low surrogate stands first. -/
def StartsHigh (body : Text) : Prop := ∀ q tail, body = q :: tail → q.isLow = false

theorem paired_cons (settled : body.paired = body) (apart : p.isHigh = true → StartsHigh body) :
    Text.paired (p :: body) = p :: body := by
  cases body with
  | nil => rfl
  | cons q body =>
    rw [Text.paired, if_neg, settled]
    intro pair
    rw [Bool.and_eq_true] at pair
    rw [apart pair.1 q body rfl] at pair
    cases pair.2

theorem isLow_of_char (char : p.isSurrogate = false) : p.isLow = false := by
  rw [← Bool.not_eq_true]
  intro low
  rw [surrogate_of_low low] at char
  cases char

theorem char_received (char : p.isSurrogate = false) (settled : body.paired = body) :
    Text.paired (p :: body) = p :: body ∧ StartsHigh (p :: body) := by
  constructor
  · apply paired_cons settled
    intro high
    rw [not_high_of_char char] at high
    cases high
  · intro q tail same
    cases same
    exact isLow_of_char char

/-- A unit at the very end of a text is not read. -/
theorem body_cut {second : Text} (short : second.length ≤ 4) {result : Text × Text} :
    stringBody start (.char '\\' :: .char 'u' :: second) ≠ .ok result := by
  have refused : ∃ stop, escape start (.char '\\' :: .char 'u' :: second) (.char 'u' :: second) =
      .error stop := by
    rw [escape, List.drop_eq_nil_of_le short]
    cases fourHex? second with
    | none => exact ⟨_, rfl⟩
    | some n => exact ⟨_, rfl⟩
  obtain ⟨stop, refused⟩ := refused
  rw [stringBody, if_neg (by decide), if_pos rfl, refused]
  intro same
  cases same

theorem escaped_of_escape (read : escape start backslash t = .ok (q, count)) :
    Escaped t q count := by
  unfold escape at read
  split at read
  · cases read
  iterate 8
    · cases read
      exact .char rfl
  next digits =>
    split at read
    · cases read
    next n named =>
      split at read
      · cases read
      next second after =>
        split at read
        next pair =>
          rw [Bool.and_eq_true] at pair
          split at read
          · cases read
          next m named' =>
            split at read
            next low =>
              obtain ⟨rfl, rfl⟩ := Prod.mk.inj (Except.ok.inj read)
              refine .char ?_
              rw [CodePoint.ofNat_char (by omega)]
              rfl
            next other =>
              obtain ⟨rfl, rfl⟩ := Prod.mk.inj (Except.ok.inj read)
              refine .unit named fun _ second' after' _ => ?_
              rw [after] at after'
              cases after'
              exact ⟨m, named', by simpa using other⟩
        next apart =>
          obtain ⟨rfl, rfl⟩ := Prod.mk.inj (Except.ok.inj read)
          refine .unit named fun high second' after' long => ?_
          rw [after] at after'
          cases after'
          exact absurd (by simp [high, long]) apart
      next other =>
        obtain ⟨rfl, rfl⟩ := Prod.mk.inj (Except.ok.inj read)
        refine .unit named fun _ second after _ => ?_
        exact absurd after (other second)
  · cases read

theorem free_tail (free : Text.surrogateFree (p :: t) = true) :
    p.isSurrogate = false ∧ t.surrogateFree = true := by
  rw [Text.surrogateFree, List.all_cons, Bool.and_eq_true, Bool.not_eq_true'] at free
  exact free

theorem free_drop (free : t.surrogateFree = true) : Text.surrogateFree (t.drop count) = true :=
  Text.surrogateFree_of_suffix free (List.drop_suffix count t)

/-- The text of a string has no surrogate pair, and starts with a low surrogate only where the escape of
one stands first. -/
theorem body_received (free : t.surrogateFree = true) (read : stringBody start t = .ok (body, rest)) :
    body.paired = body ∧ (NoLow t → StartsHigh body) ∧ rest.surrogateFree = true := by
  induction t using stringBody.induct start generalizing body with
  | case1 => rw [stringBody] at read; cases read
  | case2 after =>
    rw [stringBody, if_pos rfl] at read
    cases read
    refine ⟨rfl, fun _ q tail same => ?_, (free_tail free).2⟩
    cases same
  | case3 after stop other refused =>
    rw [stringBody, if_neg other, if_pos rfl, refused] at read
    cases read
  | case4 after q count stop failed other escaped ih =>
    rw [stringBody, if_neg other, if_pos rfl, escaped] at read
    dsimp only at read
    rw [failed] at read
    cases read
  | case5 after q count tail rest' found other escaped ih =>
    rw [stringBody, if_neg other, if_pos rfl, escaped] at read
    dsimp only at read
    rw [found] at read
    cases read
    obtain ⟨settled, first, free_rest⟩ := ih (free_drop (free_tail free).2) found
    cases escaped_of_escape escaped with
    | char char =>
      obtain ⟨kept, starts⟩ := char_received char settled
      exact ⟨kept, fun _ => starts, free_rest⟩
    | @unit digits n named single =>
      -- A high unit stands alone, so that what follows it is no escape of a low one.
      have alone : (CodePoint.ofNat n).isHigh = true → NoLow (List.drop 5 (.char 'u' :: digits)) := by
        intro high second same
        apply single high second same
        apply Nat.lt_of_not_le
        intro short
        rw [same] at found
        exact body_cut short found
      refine ⟨paired_cons settled fun high => first (alone high), fun unmarked p tail same => ?_,
        free_rest⟩
      obtain ⟨m, named', low⟩ := unmarked digits rfl
      rw [named, Option.some.injEq] at named'
      rw [← (List.cons.inj same).1, named', low]
  | case6 p after quote backslash control =>
    rw [stringBody, if_neg quote, if_neg backslash, if_pos control] at read
    cases read
  | case7 p after quote backslash shown stop failed ih =>
    rw [stringBody, if_neg quote, if_neg backslash, if_neg shown, failed] at read
    cases read
  | case8 p after quote backslash shown tail rest' found ih =>
    rw [stringBody, if_neg quote, if_neg backslash, if_neg shown, found] at read
    cases read
    have char := (free_tail free).1
    obtain ⟨settled, _, free_rest⟩ := ih (free_tail free).2 found
    obtain ⟨kept, starts⟩ := char_received char settled
    exact ⟨kept, fun _ => starts, free_rest⟩

theorem free_skip (free : t.surrogateFree = true) : (skipSpace t).surrogateFree = true :=
  Text.surrogateFree_of_suffix free (List.dropWhile_suffix _)

theorem fraction_suffix : (fraction t).2 <:+ t := by
  unfold fraction
  split
  next after =>
    dsimp only
    split
    · exact List.suffix_refl _
    · exact (List.drop_suffix _ after).trans (List.suffix_cons _ after)
  · exact List.suffix_refl _

theorem exponent_suffix {e : Int} (read : exponent? t = some (e, rest)) : rest <:+ t := by
  unfold exponent? at read
  split at read
  next p after =>
    split at read
    · dsimp only at read
      obtain ⟨n, named, same⟩ := Option.map_eq_some_iff.mp read
      rw [← (Prod.mk.inj same).2]
      refine (List.drop_suffix _ _).trans (List.IsSuffix.trans ?_ (List.suffix_cons p after))
      split
      · exact List.suffix_cons _ _
      · exact List.suffix_cons _ _
      · exact List.suffix_refl _
    · cases read
  · cases read

theorem number_received {negative : Bool} {v : Json}
    (read : number start negative t = .ok (v, rest)) : v.Received ∧ rest <:+ t := by
  unfold number at read
  dsimp only at read
  split at read
  · cases read
  next n named =>
    have after : t.drop (wholeDigits t).length <:+ t := List.drop_suffix _ t
    split at read
    · split at read
      · split at read
        · cases read
        next short =>
          obtain ⟨rfl, rfl⟩ := Prod.mk.inj (Except.ok.inj read)
          refine ⟨?_, after⟩
          have length := Text.length_ofNat_of_nat? named
          cases negative
          · exact Nat.le_trans length (Nat.le_of_not_lt short)
          · simp only [Received, if_true, Int.natAbs_neg, Int.natAbs_natCast]
            exact Nat.le_trans length (Nat.le_of_not_lt short)
      · obtain ⟨rfl, rfl⟩ := Prod.mk.inj (Except.ok.inj read)
        exact ⟨trivial, fraction_suffix.trans after⟩
    next e rest' marked =>
      obtain ⟨rfl, rfl⟩ := Prod.mk.inj (Except.ok.inj read)
      exact ⟨trivial, (exponent_suffix marked).trans (fraction_suffix.trans after)⟩

theorem words_received : ∀ w ∈ words, w.2.Received := by
  simp [words, Received]

theorem word_received {v : Json} (read : wordOrNumber t = .ok (v, rest)) :
    v.Received ∧ rest <:+ t := by
  unfold wordOrNumber at read
  split at read
  next word w found =>
    obtain ⟨rfl, rfl⟩ := Prod.mk.inj (Except.ok.inj read)
    exact ⟨words_received _ (List.mem_of_find?_eq_some found), List.drop_suffix _ t⟩
  · split at read
    · obtain ⟨received, part⟩ := number_received read
      exact ⟨received, part.trans (List.suffix_cons _ _)⟩
    · exact number_received read

end

mutual

theorem value_received (fuel : Nat) {t rest : Text} {v : Json} (free : t.surrogateFree = true)
    (read : value fuel t = .ok (v, rest)) : v.Received ∧ rest.surrogateFree = true := by
  match fuel with
  | 0 =>
    rw [value] at read
    cases read
  | fuel + 1 =>
    unfold value at read
    split at read
    next after =>
      split at read
      · cases read
      next body rest' found =>
        cases read
        obtain ⟨settled, _, free_rest⟩ := body_received (free_tail free).2 found
        exact ⟨settled, free_rest⟩
    next after =>
      have inside := free_skip (free_tail free).2
      split at read
      next rest' closed =>
        cases read
        rw [closed] at inside
        exact ⟨trivial, (free_tail inside).2⟩
      · split at read
        · cases read
        next items rest' found =>
          cases read
          exact elements_received fuel inside found
    next after =>
      have inside := free_skip (free_tail free).2
      split at read
      next rest' closed =>
        cases read
        rw [closed] at inside
        exact ⟨⟨List.nodup_nil, trivial⟩, (free_tail inside).2⟩
      · split at read
        · cases read
        next settings rest' found =>
          cases read
          obtain ⟨received, free_rest⟩ := members_received fuel inside found
          refine ⟨⟨Members.nodup_putAll List.nodup_nil, receivedMembers_iff.mpr ?_⟩, free_rest⟩
          intro m member
          rcases Members.mem_putAll member with set | none_before
          · exact receivedMembers_iff.mp received m set
          · cases none_before
    · obtain ⟨received, part⟩ := word_received read
      exact ⟨received, Text.surrogateFree_of_suffix free part⟩

theorem elements_received (fuel : Nat) {t rest : Text} {items : List Json}
    (free : t.surrogateFree = true) (read : elements fuel t = .ok (items, rest)) :
    ReceivedItems items ∧ rest.surrogateFree = true := by
  match fuel with
  | 0 =>
    rw [elements] at read
    cases read
  | fuel + 1 =>
    unfold elements at read
    split at read
    · cases read
    next v after found =>
      obtain ⟨received, free_after⟩ := value_received fuel free found
      have inside := free_skip free_after
      split at read
      next rest' closed =>
        cases read
        rw [closed] at inside
        exact ⟨⟨received, trivial⟩, (free_tail inside).2⟩
      next rest' comma =>
        rw [comma] at inside
        split at read
        · cases read
        next later rest' found' =>
          cases read
          obtain ⟨more, free_rest⟩ :=
            elements_received fuel (free_skip (free_tail inside).2) found'
          exact ⟨⟨received, more⟩, free_rest⟩
      · cases read

theorem members_received (fuel : Nat) {t rest : Text} {settings : List (Text × Json)}
    (free : t.surrogateFree = true) (read : members fuel t = .ok (settings, rest)) :
    ReceivedMembers settings ∧ rest.surrogateFree = true := by
  match fuel with
  | 0 =>
    rw [members] at read
    cases read
  | fuel + 1 =>
    unfold members at read
    split at read
    next after =>
      split at read
      · cases read
      next name named_rest named =>
        obtain ⟨settled, _, free_named⟩ := body_received (free_tail free).2 named
        have colon := free_skip free_named
        split at read
        next valued marked =>
          rw [marked] at colon
          split at read
          · cases read
          next v after found =>
            obtain ⟨received, free_after⟩ :=
              value_received fuel (free_skip (free_tail colon).2) found
            have inside := free_skip free_after
            split at read
            next rest' closed =>
              cases read
              rw [closed] at inside
              exact ⟨⟨settled, received, trivial⟩, (free_tail inside).2⟩
            next rest' comma =>
              rw [comma] at inside
              split at read
              · cases read
              next later rest' found' =>
                cases read
                obtain ⟨more, free_rest⟩ :=
                  members_received fuel (free_skip (free_tail inside).2) found'
                exact ⟨⟨settled, received, more⟩, free_rest⟩
            · cases read
        · cases read
    · cases read

end

/-- What is read from a text without surrogates is a value as reading makes it. -/
theorem received_read {t : Text} {v : Json} (free : t.surrogateFree = true)
    (read : Json.read t = .ok v) : v.Received := by
  unfold Json.read at read
  split at read
  · cases read
  next whole all =>
    cases read
    unfold readAll at all
    split at all
    · cases all
    · split at all
      · cases all
      next found =>
        split at all
        · cases all
          exact (value_received _ (free_skip free) found).1
        · cases all

end Json

end GrammarBundle
