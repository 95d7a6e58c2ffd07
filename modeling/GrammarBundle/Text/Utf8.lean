import GrammarBundle.Text.Decimal
import GrammarBundle.Text.Quoted

/-!
UTF-8. Encoding refuses surrogates; decoding refuses every byte sequence that no text encodes to, and
says where and why. The lenient decoder puts U+FFFD for each maximal run of bytes that starts a
character and does not finish it.
-/

namespace GrammarBundle.Utf8

def encodeNumber (n : Nat) : List UInt8 :=
  let tail (shift : Nat) : UInt8 := UInt8.ofNat (0x80 + n / Nat.pow 2 shift % 64)
  if n < 0x80 then [UInt8.ofNat n]
  else if n < 0x800 then [UInt8.ofNat (0xC0 + n / 64), tail 0]
  else if n < 0x10000 then [UInt8.ofNat (0xE0 + n / 4096), tail 6, tail 0]
  else [UInt8.ofNat (0xF0 + n / 262144), tail 12, tail 6, tail 0]

/-- Text that has no encoding: the first run of surrogates in it. -/
structure EncodeFault where
  first : CodePoint
  position : Nat
  count : Nat
  deriving DecidableEq, Repr

def EncodeFault.message (f : EncodeFault) : Text :=
  if f.count = 1 then
    "'utf-8' codec can't encode character '" ++ Text.numberEscape f.first ++ "' in position " ++
      Text.ofNat f.position ++ ": surrogates not allowed"
  else
    "'utf-8' codec can't encode characters in position " ++ Text.ofNat f.position ++ "-" ++
      Text.ofNat (f.position + f.count - 1) ++ ": surrogates not allowed"

/-- The bytes of a text, given how many code points stand before it. -/
def encodeFrom (position : Nat) : Text → Except EncodeFault (List UInt8)
  | [] => .ok []
  | .char c :: rest => (encodeNumber c.toNat ++ ·) <$> encodeFrom (position + 1) rest
  | .surrogate u :: rest =>
    .error ⟨.surrogate u, position, 1 + (rest.takeWhile (·.isSurrogate)).length⟩

def encode (t : Text) : Except EncodeFault (List UInt8) := encodeFrom 0 t

inductive DecodeCause where
  | invalidStart
  | invalidContinuation
  | unexpectedEnd
  deriving DecidableEq, Repr

/-- Bytes that are not UTF-8: the cause, and the span that shows it. -/
structure DecodeFault where
  cause : DecodeCause
  first : UInt8
  position : Nat
  count : Nat
  deriving DecidableEq, Repr

def DecodeCause.message : DecodeCause → Text
  | .invalidStart => "invalid start byte"
  | .invalidContinuation => "invalid continuation byte"
  | .unexpectedEnd => "unexpected end of data"

def DecodeFault.message (f : DecodeFault) : Text :=
  if f.count = 1 then
    "'utf-8' codec can't decode byte 0x" ++ Text.hex 2 f.first.toNat ++ " in position " ++
      Text.ofNat f.position ++ ": " ++ f.cause.message
  else
    "'utf-8' codec can't decode bytes in position " ++ Text.ofNat f.position ++ "-" ++
      Text.ofNat (f.position + f.count - 1) ++ ": " ++ f.cause.message

/-- What stands at the head of a byte sequence: a character, or a fault, and the bytes it takes. -/
inductive Lead where
  | point (number size : Nat)
  | fault (cause : DecodeCause) (size : Nat)
  deriving DecidableEq, Repr

def isTail (b : Nat) : Bool := 0x80 ≤ b && b ≤ 0xBF

/-- Whether the second byte may follow the first: neither a longer form than needed, nor a surrogate,
nor a number above U+10FFFF. -/
def mayFollow (first second : Nat) : Bool :=
  isTail second &&
    (if first = 0xE0 then 0xA0 ≤ second
     else if first = 0xED then second ≤ 0x9F
     else if first = 0xF0 then 0x90 ≤ second
     else if first = 0xF4 then second ≤ 0x8F
     else true)

/-- The character or fault that a first byte and the bytes after it make. -/
def lead (first : Nat) (rest : List Nat) : Lead :=
  if first < 0x80 then .point first 1
  else if first < 0xC2 || 0xF4 < first then .fault .invalidStart 1
  else
    match rest with
    | [] => .fault .unexpectedEnd 1
    | second :: rest =>
      if !mayFollow first second then .fault .invalidContinuation 1
      else if first < 0xE0 then .point ((first - 0xC0) * 64 + (second - 0x80)) 2
      else
        match rest with
        | [] => .fault .unexpectedEnd 2
        | third :: rest =>
          if !isTail third then .fault .invalidContinuation 2
          else if first < 0xF0 then
            .point (((first - 0xE0) * 64 + (second - 0x80)) * 64 + (third - 0x80)) 3
          else
            match rest with
            | [] => .fault .unexpectedEnd 3
            | fourth :: _ =>
              if !isTail fourth then .fault .invalidContinuation 3
              else
                .point
                  ((((first - 0xF0) * 64 + (second - 0x80)) * 64 + (third - 0x80)) * 64 +
                    (fourth - 0x80))
                  4

/-- The head of a byte sequence whose first byte is known. -/
def leadOf (first : UInt8) (rest : List UInt8) : Lead :=
  lead first.toNat ((rest.take 3).map UInt8.toNat)

/-- The text of a byte sequence, given how many bytes stand before it. -/
def decodeFrom (position : Nat) : List UInt8 → Except DecodeFault Text
  | [] => .ok []
  | b :: rest =>
    match leadOf b rest with
    | .point number size =>
      (CodePoint.ofNat number :: ·) <$> decodeFrom (position + size) (rest.drop (size - 1))
    | .fault cause size => .error ⟨cause, b, position, size⟩
termination_by bytes => bytes.length
decreasing_by simp only [List.length_drop, List.length_cons]; omega

def decode (bytes : List UInt8) : Except DecodeFault Text := decodeFrom 0 bytes

/-- The text that the bytes encode, with U+FFFD for each faulty span. -/
def decodeLenient : List UInt8 → Text
  | [] => []
  | b :: rest =>
    match leadOf b rest with
    | .point number size => CodePoint.ofNat number :: decodeLenient (rest.drop (size - 1))
    | .fault _ size => CodePoint.ofNat 0xFFFD :: decodeLenient (rest.drop (size - 1))
termination_by bytes => bytes.length
decreasing_by
  all_goals
    simp only [List.length_drop, List.length_cons]
    omega

end GrammarBundle.Utf8
