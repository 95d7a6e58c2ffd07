import GrammarBundle.Text.CodePoint

/-!
Base 64: bytes as text of sixty-four characters, four for every three bytes. Characters outside the
alphabet are passed over, and padding ends the text once it completes a group.
-/

namespace GrammarBundle.Yaml.Base64

def place? (p : CodePoint) : Option Nat :=
  match p with
  | .char c =>
    if 'A' ≤ c ∧ c ≤ 'Z' then some (c.toNat - 'A'.toNat)
    else if 'a' ≤ c ∧ c ≤ 'z' then some (c.toNat - 'a'.toNat + 26)
    else if '0' ≤ c ∧ c ≤ '9' then some (c.toNat - '0'.toNat + 52)
    else if c = '+' then some 62
    else if c = '/' then some 63
    else none
  | .surrogate _ => none

/-- The bytes from a place inside a group on: `filled` characters of the group have been read, `left`
holds their bits that are not part of a byte yet, and `padding` marks stand before. -/
def bytesFrom? (filled left padding : Nat) : Text → Option (List UInt8)
  | [] => if filled = 0 then some [] else none
  | p :: rest =>
    if p = .char '=' then
      if 2 ≤ filled ∧ 4 ≤ filled + padding + 1 then some []
      else bytesFrom? filled left (if 2 ≤ filled then padding + 1 else padding) rest
    else
      match place? p with
      | none => bytesFrom? filled left padding rest
      | some d =>
        if filled = 0 then bytesFrom? 1 d 0 rest
        else if filled = 1 then
          (bytesFrom? 2 (d % 16) 0 rest).map (UInt8.ofNat (left * 4 + d / 16) :: ·)
        else if filled = 2 then
          (bytesFrom? 3 (d % 4) 0 rest).map (UInt8.ofNat (left * 16 + d / 4) :: ·)
        else (bytesFrom? 0 0 0 rest).map (UInt8.ofNat (left * 64 + d) :: ·)

def bytes? (t : Text) : Option (List UInt8) :=
  if t.all (·.val < 0x80) then bytesFrom? 0 0 0 t else none

end GrammarBundle.Yaml.Base64
