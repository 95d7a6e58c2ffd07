import GrammarBundle.Proofs.Json.Intact
import GrammarBundle.Proofs.Script.Number
import GrammarBundle.Proofs.Text.Utf16

/-!
JSON as the script language writes it, over the sixteen-bit units of its strings. A string is written one
code point at a time, where a pair of surrogates is a code point and a single surrogate is another. The
compact form of a value is the same text, where the numbers are whole and both have the same strings.
-/

namespace GrammarBundle

namespace Script

/-- The values that have a JSON text. -/
inductive Value where
  | null
  | bool (b : Bool)
  | number (x : ℚ)
  | notFinite
  | string (units : Units)
  | array (items : List Value)
  | object (members : List (Units × Value))

/-- The code points with an escape of two characters. -/
def singleEscapes : List (Nat × Text) :=
  [(0x08, "\\b"), (0x09, "\\t"), (0x0A, "\\n"), (0x0C, "\\f"), (0x0D, "\\r"), (0x22, "\\\""),
    (0x5C, "\\\\")]

/-- A code point inside a string. -/
def quotedPoint (p : CodePoint) : Units :=
  match singleEscapes.lookup p.val with
  | some e => Utf16.encode e
  | none =>
    if p.val < 0x20 ∨ 0xD800 ≤ p.val ∧ p.val ≤ 0xDFFF then
      Utf16.encode ("\\u" ++ Text.hex 4 p.val)
    else Utf16.encodePoint p

def quote (units : Units) : Units :=
  Utf16.encode "\"" ++ (Utf16.decode units).flatMap quotedPoint ++ Utf16.encode "\""

mutual

/-- The text of a value, without indentation. -/
inductive Serialized : Value → Units → Prop
  | null : Serialized .null (Utf16.encode "null")
  | yes : Serialized (.bool true) (Utf16.encode "true")
  | no : Serialized (.bool false) (Utf16.encode "false")
  | number {x : ℚ} {t : Text} : Printed x t → Serialized (.number x) (Utf16.encode t)
  | notFinite : Serialized .notFinite (Utf16.encode "null")
  | string {units : Units} : Serialized (.string units) (quote units)
  | array {items : List Value} {parts : List Units} : SerializedItems items parts →
      Serialized (.array items)
        (Utf16.encode "[" ++ (Utf16.encode ",").intercalate parts ++ Utf16.encode "]")
  | object {members : List (Units × Value)} {parts : List Units} :
      SerializedMembers members parts → Serialized (.object members)
        (Utf16.encode "\x7b" ++ (Utf16.encode ",").intercalate parts ++ Utf16.encode "\x7d")

inductive SerializedItems : List Value → List Units → Prop
  | nil : SerializedItems [] []
  | cons {v : Value} {part : Units} {items : List Value} {parts : List Units} :
      Serialized v part → SerializedItems items parts → SerializedItems (v :: items) (part :: parts)

inductive SerializedMembers : List (Units × Value) → List Units → Prop
  | nil : SerializedMembers [] []
  | cons {k : Units} {v : Value} {part : Units} {members : List (Units × Value)}
      {parts : List Units} : Serialized v part → SerializedMembers members parts →
      SerializedMembers ((k, v) :: members) ((quote k ++ Utf16.encode ":" ++ part) :: parts)

end

end Script

namespace Json

mutual

/-- The same value in the script language, each text as its units. -/
def script : Json → Script.Value
  | .null => .null
  | .bool b => .bool b
  | .int n => .number n
  | .float (.finite negative m q) => .number ((if negative then -1 else 1) * m * 2 ^ q)
  | .float _ => .notFinite
  | .str t => .string (Utf16.encode t)
  | .list items => .array (scriptItems items)
  | .object members => .object (scriptMembers members)

def scriptItems : List Json → List Script.Value
  | [] => []
  | v :: rest => script v :: scriptItems rest

def scriptMembers : List (Text × Json) → List (Units × Script.Value)
  | [] => []
  | (k, v) :: rest => (Utf16.encode k, script v) :: scriptMembers rest

end

mutual

/-- Values that both languages have: their numbers are whole and below 2 ^ 53 in magnitude, and no text
of them has a high surrogate directly before a low one. -/
def Common : Json → Prop
  | .int n => n.natAbs < 2 ^ 53
  | .float _ => False
  | .str t => t.Unpaired
  | .list items => CommonItems items
  | .object members => CommonMembers members
  | _ => True

def CommonItems : List Json → Prop
  | [] => True
  | v :: rest => Common v ∧ CommonItems rest

def CommonMembers : List (Text × Json) → Prop
  | [] => True
  | (k, v) :: rest => k.Unpaired ∧ Common v ∧ CommonMembers rest

end

mutual

theorem Common.whole {v : Json} (common : v.Common) : v.Whole := by
  match v with
  | .null | .bool _ | .int _ | .str _ => trivial
  | .float _ => exact common
  | .list items => exact CommonItems.whole common
  | .object members => exact CommonMembers.whole common

theorem CommonItems.whole {items : List Json} (common : CommonItems items) : WholeItems items := by
  match items with
  | [] => trivial
  | v :: rest => exact ⟨Common.whole common.1, CommonItems.whole common.2⟩

theorem CommonMembers.whole {members : List (Text × Json)} (common : CommonMembers members) :
    WholeMembers members := by
  match members with
  | [] => trivial
  | (k, v) :: rest => exact ⟨Common.whole common.2.1, CommonMembers.whole common.2.2⟩

end

end Json

namespace Script

open Json

/-- The numbers of the code points with an escape of their own. -/
theorem lookup_singleEscapes (p : CodePoint) : singleEscapes.lookup p.val = shortEscape? p := by
  unfold shortEscape?
  split
  iterate 7 rfl
  next quote backslash newline carriage tab feed back =>
    rw [List.lookup_eq_none_iff]
    intro e listed
    rw [bne_iff_ne]
    intro same
    have known : p = .ofNat e.1 := by rw [← same, CodePoint.ofNat_val]
    simp only [singleEscapes, List.mem_cons, List.not_mem_nil, or_false] at listed
    rcases listed with rfl | rfl | rfl | rfl | rfl | rfl | rfl
    · exact back known
    · exact tab known
    · exact newline known
    · exact feed known
    · exact carriage known
    · exact quote known
    · exact backslash known

theorem surrogate_iff (p : CodePoint) :
    p.isSurrogate = true ↔ 0xD800 ≤ p.val ∧ p.val ≤ 0xDFFF := by
  cases p with
  | surrogate u =>
    have bound := u.isLt
    have range : 0xD800 ≤ 0xD800 + u.val ∧ 0xD800 + u.val ≤ 0xDFFF := by omega
    exact iff_of_true rfl range
  | char c =>
    have apart : ¬(0xD800 ≤ c.toNat ∧ c.toNat ≤ 0xDFFF) := by
      have valid : c.toNat < 0xD800 ∨ 0xDFFF < c.toNat ∧ c.toNat < 0x110000 := c.valid
      omega
    exact iff_of_false Bool.false_ne_true apart

/-- Both write a code point inside a string alike. -/
theorem quotedPoint_eq (p : CodePoint) : quotedPoint p = Utf16.encode (compactPoint p) := by
  unfold quotedPoint compactPoint
  rw [lookup_singleEscapes]
  cases shortEscape? p with
  | some e => rfl
  | none =>
    simp only [Bool.or_eq_true, decide_eq_true_eq, surrogate_iff]
    split
    · rfl
    · rw [Utf16.encode, List.flatMap_singleton]

theorem quote_eq {t : Text} (unpaired : t.Unpaired) :
    quote (Utf16.encode t) = Utf16.encode (Style.compact.quote t) := by
  have inside : t.flatMap quotedPoint = Utf16.encode (t.flatMap compactPoint) := by
    rw [Utf16.encode_flatMap]
    exact congrArg t.flatMap (funext quotedPoint_eq)
  rw [quote, Utf16.decode_encode, Text.paired_of_unpaired unpaired, inside,
    ← Utf16.encode_append, ← Utf16.encode_append]
  rfl

theorem encode_between (opening closing : Text) (parts : List Text) :
    Utf16.encode (opening ++ Text.join "," parts ++ closing) =
      Utf16.encode opening ++ (Utf16.encode ",").intercalate (parts.map Utf16.encode) ++
        Utf16.encode closing := by
  rw [Utf16.encode_append, Utf16.encode_append, Utf16.encode_join]

mutual

/-- A value of both languages has one text, which is its compact form. -/
theorem serialized_iff {v : Json} (common : v.Common) {out : Units} :
    Serialized v.script out ↔ out = Utf16.encode v.compact := by
  match v with
  | .null =>
    constructor
    · rintro ⟨⟩
      rfl
    · rintro rfl
      exact .null
  | .bool true =>
    constructor
    · rintro ⟨⟩
      rfl
    · rintro rfl
      exact .yes
  | .bool false =>
    constructor
    · rintro ⟨⟩
      rfl
    · rintro rfl
      exact .no
  | .int n =>
    constructor
    · intro serialized
      cases serialized with
      | number printed =>
        rw [(printed_intCast common).mp printed]
        rfl
    · rintro rfl
      exact .number ((printed_intCast common).mpr rfl)
  | .float x => exact common.elim
  | .str t =>
    have written : Style.compact.quote t = compact (.str t) := rfl
    rw [← written, ← quote_eq common]
    constructor
    · rintro ⟨⟩
      rfl
    · rintro rfl
      exact .string
  | .list items =>
    rw [compact_list, encode_between]
    constructor
    · intro serialized
      cases serialized with
      | array each => rw [(serializedItems_iff common).mp each, List.map_map]
    · rintro rfl
      rw [List.map_map]
      exact .array ((serializedItems_iff common).mpr rfl)
  | .object members =>
    rw [compact_object, encode_between]
    constructor
    · intro serialized
      cases serialized with
      | object each => rw [(serializedMembers_iff common).mp each, List.map_map]
    · rintro rfl
      rw [List.map_map]
      exact .object ((serializedMembers_iff common).mpr rfl)

theorem serializedItems_iff {items : List Json} (common : CommonItems items) {parts : List Units} :
    SerializedItems (scriptItems items) parts ↔ parts = items.map (Utf16.encode ∘ compact) := by
  match items with
  | [] =>
    constructor
    · rintro ⟨⟩
      rfl
    · rintro rfl
      exact .nil
  | v :: rest =>
    constructor
    · intro serialized
      cases serialized with
      | cons first each =>
        rw [(serialized_iff common.1).mp first, (serializedItems_iff common.2).mp each]
        rfl
    · rintro rfl
      exact .cons ((serialized_iff common.1).mpr rfl) ((serializedItems_iff common.2).mpr rfl)

theorem serializedMembers_iff {members : List (Text × Json)} (common : CommonMembers members)
    {parts : List Units} : SerializedMembers (scriptMembers members) parts ↔
      parts = members.map (Utf16.encode ∘ compactMember) := by
  match members with
  | [] =>
    constructor
    · rintro ⟨⟩
      rfl
    · rintro rfl
      exact .nil
  | (k, v) :: rest =>
    have named : Utf16.encode (compactMember (k, v)) =
        quote (Utf16.encode k) ++ Utf16.encode ":" ++ Utf16.encode v.compact := by
      rw [compactMember, Utf16.encode_append, Utf16.encode_append, quote_eq common.1]
    rw [List.map_cons, Function.comp_apply, named]
    constructor
    · intro serialized
      cases serialized with
      | cons first each =>
        rw [(serialized_iff common.2.1).mp first, (serializedMembers_iff common.2.2).mp each]
    · rintro rfl
      exact .cons ((serialized_iff common.2.1).mpr rfl) ((serializedMembers_iff common.2.2).mpr rfl)

end

/-- The compact form of a value of both languages is, as code points, the one text that the script
language has for it. -/
theorem compact_stringifies {v : Json} (common : v.Common) :
    ∃ out, (∀ other, Serialized v.script other ↔ other = out) ∧ Utf16.decode out = v.compact := by
  refine ⟨Utf16.encode v.compact, fun _ => serialized_iff common, ?_⟩
  rw [Utf16.decode_encode]
  exact Text.paired_of_surrogateFree
    (Text.surrogateFree_of_isVisible (visible_compact v))

/-- A low surrogate before a high one, and characters of all kinds beside them. -/
def compactSample : Json :=
  .object [(.ofNat 0xDFD0 :: .ofNat 0xD807 :: Text.ofString "\"\\/\x00\x1f\x7f\u2028😀",
    .list [.int (-12), .null]), ([], .object [([], .bool true)])]

theorem compact_stringifies_sample : compactSample.Common ∧
    ∃ out, (∀ other, Serialized compactSample.script other ↔ other = out) ∧
      Utf16.decode out = compactSample.compact :=
  have common : compactSample.Common := by
    unfold compactSample
    simp only [Common, CommonMembers, CommonItems]
    decide
  ⟨common, compact_stringifies common⟩

end Script

end GrammarBundle
