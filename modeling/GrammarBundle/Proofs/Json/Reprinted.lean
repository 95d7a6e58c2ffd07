import GrammarBundle.Proofs.Json.Canonical

/-!
What is read can be printed. Reading refuses whole numbers of more digits than printing does, so that every
value which was read has a text again, whatever text it was read from.
-/

namespace GrammarBundle.Json

mutual

theorem printable_of_received {v : Json} (received : v.Received) : v.isPrintable = true := by
  match v with
  | .null | .bool _ | .float _ | .str _ => rfl
  | .int n => exact decide_eq_true received
  | .list items => exact arePrintable_of_received received
  | .object members => exact arePrintableMembers_of_received received.2

theorem arePrintable_of_received {items : List Json} (received : ReceivedItems items) :
    arePrintable items = true := by
  match items with
  | [] => rfl
  | v :: rest =>
    rw [arePrintable, printable_of_received received.1, arePrintable_of_received received.2]
    rfl

theorem arePrintableMembers_of_received {members : List (Text × Json)}
    (received : ReceivedMembers members) : arePrintableMembers members = true := by
  match members with
  | [] => rfl
  | (k, v) :: rest =>
    rw [arePrintableMembers, printable_of_received received.2.1,
      arePrintableMembers_of_received received.2.2]
    rfl

end

/-- Settings that can be printed make members that can. -/
theorem arePrintableMembers_ofSettings {settings : Members}
    (printable : arePrintableMembers settings = true) :
    arePrintableMembers (Members.ofSettings settings) = true := by
  rw [arePrintableMembers_iff] at printable ⊢
  intro m member
  rcases Members.mem_putAll member with set | none_before
  · exact printable m set
  · cases none_before

mutual

theorem printable_value (fuel : Nat) {t rest : Text} {v : Json} (read : value fuel t = .ok (v, rest)) :
    v.isPrintable = true := by
  match fuel with
  | 0 =>
    rw [value] at read
    cases read
  | fuel + 1 =>
    unfold value at read
    split at read
    · split at read
      · cases read
      · cases read
        rfl
    · split at read
      · cases read
        rfl
      · split at read
        · cases read
        next found =>
          cases read
          exact printable_elements fuel found
    · split at read
      · cases read
        rfl
      · split at read
        · cases read
        next found =>
          cases read
          exact arePrintableMembers_ofSettings (printable_members fuel found)
    · exact printable_of_received (word_received read).1

theorem printable_elements (fuel : Nat) {t rest : Text} {items : List Json}
    (read : elements fuel t = .ok (items, rest)) : arePrintable items = true := by
  match fuel with
  | 0 =>
    rw [elements] at read
    cases read
  | fuel + 1 =>
    unfold elements at read
    split at read
    · cases read
    next v after found =>
      have first := printable_value fuel found
      split at read
      · cases read
        rw [arePrintable, first]
        rfl
      · split at read
        · cases read
        next later =>
          cases read
          rw [arePrintable, first, printable_elements fuel later]
          rfl
      · cases read

theorem printable_members (fuel : Nat) {t rest : Text} {settings : List (Text × Json)}
    (read : members fuel t = .ok (settings, rest)) : arePrintableMembers settings = true := by
  match fuel with
  | 0 =>
    rw [members] at read
    cases read
  | fuel + 1 =>
    unfold members at read
    split at read
    · split at read
      · cases read
      · split at read
        · split at read
          · cases read
          next v after found =>
            have first := printable_value fuel found
            split at read
            · cases read
              rw [arePrintableMembers, first]
              rfl
            · split at read
              · cases read
              next later =>
                cases read
                rw [arePrintableMembers, first, printable_members fuel later]
                rfl
            · cases read
        · cases read
    · cases read

end

theorem printable_read {t : Text} {v : Json} (read : Json.read t = .ok v) : v.isPrintable = true := by
  unfold Json.read at read
  split at read
  · cases read
  next all =>
    cases read
    unfold readAll at all
    split at all
    · cases all
    · split at all
      · cases all
      next found =>
        split at all
        · cases all
          exact printable_value _ found
        · cases all

end GrammarBundle.Json
