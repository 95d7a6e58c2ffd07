import GrammarBundle.Proofs.Bundle.Emissions
import GrammarBundle.Proofs.Bundle.Unambiguous
import GrammarBundle.Proofs.Json.Received

/-!
Modules that can be written. Recipes are made of compact forms, in which every surrogate is an escape, so
that the text of a module has surrogates only where a key or the name of a base has one. Without those it
has an encoding, and a directory takes it wherever it can open the file.
-/

namespace GrammarBundle

namespace Text

theorem surrogateFree_flatMap {α : Type} {items : List α} {text : α → Text}
    (free : ∀ item ∈ items, (text item).surrogateFree = true) :
    surrogateFree (items.flatMap text) = true := by
  rw [surrogateFree, List.all_flatMap, List.all_eq_true]
  exact free

end Text

theorem Json.free_compact (v : Json) : v.compact.surrogateFree = true :=
  Text.surrogateFree_of_isVisible (visible_compact v)

/-- An entry whose key and whose base's name have no surrogates, and whose numbers are all whole. -/
structure Entry.Encodable (entry : Entry) : Prop where
  key : entry.key.surrogateFree = true
  base : ∀ base, entry.grammar.base? = some base → base.title.surrogateFree = true
  declaration : entry.grammar.declaration.Whole

namespace Bundle

theorem free_recipe (d : Declaration) {base : Text} (free : base.surrogateFree = true) :
    (d.recipe base).surrogateFree = true := by
  have tag : (Json.compact (.str "grammar")).surrogateFree = true := Json.free_compact _
  simp only [Declaration.recipe, Text.join, Text.surrogateFree_append, tag, free,
    Json.free_compact, and_true]
  decide

theorem free_slotOf {g : Grammar}
    (free : ∀ base, g.base? = some base → base.title.surrogateFree = true) :
    (slotOf g).text.surrogateFree = true := by
  cases based : g.base? with
  | none =>
    rw [slotOf_root based]
    decide
  | some base =>
    rw [slotOf_base based]
    exact Text.surrogateFree_append.mpr ⟨by decide, free base based⟩

theorem free_statement {entry : Entry} (encodable : entry.Encodable) (single : Bool) :
    (statementOf single entry).text.surrogateFree = true := by
  have target : (statementOf single entry).target.text.surrogateFree = true := by
    cases single with
    | true => rfl
    | false =>
      change ("result." ++ entry.key ++ "=" : Text).surrogateFree = true
      simp only [Text.surrogateFree_append, encodable.key, and_true]
      decide
  have recipe := free_recipe entry.grammar.declaration (free_slotOf encodable.base)
  simp only [Statement.text, Text.surrogateFree_append]
  exact ⟨⟨⟨target, by decide⟩, recipe⟩, by decide⟩

theorem free_renderModule {c : Collection} (format : Format) {runtime : Text}
    (known : runtime.surrogateFree = true) (encodable : ∀ entry ∈ c, entry.Encodable) :
    (renderModule format runtime c).surrogateFree = true := by
  have preamble : (format.preamble runtime).surrogateFree = true := by
    cases format <;> simp only [Format.preamble, Text.surrogateFree_append, known, and_true] <;> decide
  have object (several : Bool) :
      (Text.onlyIf several "const result=\x7b\x7d;").surrogateFree = true := by
    cases several <;> decide
  have body : Text.surrogateFree ((statements c).flatMap Statement.text) = true := by
    rw [statements_eq]
    apply Text.surrogateFree_flatMap
    intro s member
    obtain ⟨entry, inside, rfl⟩ := List.mem_map.mp member
    exact free_statement (encodable entry inside) _
  have trailer : format.trailer.surrogateFree = true := by
    cases format <;> decide
  simp only [renderModule, Text.surrogateFree_append]
  exact ⟨⟨⟨preamble, object _⟩, body⟩, trailer⟩

/-- A directory takes contents that have an encoding wherever it can open the file. -/
theorem on_write_encoded (filename : Text) (host : Host) (ctx : Context) (base : Path)
    (written : List Path) {contents : Text} {bytes : List UInt8}
    (encoded : Utf8.encode contents = .ok bytes) :
    ∃ errors, (Emission.write filename contents).on ⟨host, .directory ctx base written⟩ =
      match host.disk.writePlace host.workdir (base.join filename).toText with
      | .error fault =>
        (.error (Failure.ofPath (base.join filename).toText fault),
          ⟨host.logged errors, .directory ctx base written⟩)
      | .ok place =>
        (.ok (),
          ⟨{ host with disk := host.disk.set place (.file bytes), errors },
            .directory ctx base (written ++ [base.join filename])⟩) := by
  obtain ⟨errors, wrote⟩ := Emission.on_write_directory filename contents host ctx base written
  rw [encoded] at wrote
  exact ⟨errors, wrote⟩

/-- What is read from a text without surrogates, if its numbers are whole, is read back from its compact
form, which is visible text with an encoding: the text as it is written with its surrogates escaped
afterwards. So modules of such values have an encoding, and writing one fails only where its file cannot
be opened. -/
theorem compact_reads_back_and_encodes :
    (∀ (t : Text) (v : Json), t.surrogateFree = true → Json.read t = .ok v → v.Whole →
      Json.read v.compact = .ok v ∧
        v.compact.surrogateFree = true ∧
        (∀ p ∈ v.compact, 0x20 ≤ p.val) ∧
        (∃ bytes, Utf8.encode v.compact = .ok bytes) ∧
        v.compact = (Json.write .kept 0 v).flatMap Json.escapeSurrogate) ∧
    ∀ (c : Collection) (format : Format) (runtime : Text), runtime.surrogateFree = true →
      (∀ entry ∈ c, entry.Encodable) →
      (renderModule format runtime c).surrogateFree = true ∧
        ∃ bytes, Utf8.encode (renderModule format runtime c) = .ok bytes ∧
          ∀ (filename : Text) (host : Host) (ctx : Context) (base : Path) (written : List Path),
            ∃ errors, (Emission.write filename (renderModule format runtime c)).on
                ⟨host, .directory ctx base written⟩ =
              match host.disk.writePlace host.workdir (base.join filename).toText with
              | .error fault =>
                (.error (Failure.ofPath (base.join filename).toText fault),
                  ⟨host.logged errors, .directory ctx base written⟩)
              | .ok place =>
                (.ok (),
                  ⟨{ host with disk := host.disk.set place (.file bytes), errors },
                    .directory ctx base (written ++ [base.join filename])⟩) := by
  constructor
  · intro t v free read whole
    have free_form := Json.free_compact v
    refine ⟨Json.read_compact (Json.received_read free read) whole, free_form, ?_,
      Utf8.encode_of_surrogateFree free_form, Json.compact_eq_escaped whole⟩
    intro p member
    have visible := List.all_eq_true.mp (Json.visible_compact v) p member
    rw [CodePoint.isVisible, Bool.and_eq_true, decide_eq_true_eq] at visible
    exact visible.1
  · intro c format runtime known encodable
    have free := free_renderModule format known encodable
    obtain ⟨bytes, encoded⟩ := Utf8.encode_of_surrogateFree free
    refine ⟨free, bytes, encoded, ?_⟩
    intro filename host ctx base written
    exact on_write_encoded filename host ctx base written encoded

/-- A value with surrogates that have no partner, in texts and in a name. -/
def loneSurrogates : Json :=
  .object [(.ofNat 0xD800 :: "k", .list [.int (-1), .str [.char '\\', .ofNat 0xDC00, .ofNat 0xD800]]),
    ("k", .str (.ofNat 0xD83D :: "\\udc00\n"))]

def loneGrammar : Collection := [⟨"G", 0, .root ⟨.str "G", .object [], .null, loneSurrogates⟩⟩]

theorem encodable_loneGrammar : ∀ entry ∈ loneGrammar, entry.Encodable := by
  intro entry member
  obtain rfl := List.mem_singleton.mp member
  refine ⟨by decide, ?_, trivial, trivial, trivial, ⟨trivial, trivial, trivial⟩, trivial, trivial⟩
  intro base based
  cases based

theorem compact_reads_back_and_encodes_lone :
    (loneSurrogates.line.surrogateFree = true ∧
      Json.read loneSurrogates.line = .ok loneSurrogates ∧
      Json.read loneSurrogates.compact = .ok loneSurrogates ∧
      loneSurrogates.compact.surrogateFree = true) ∧
    (renderModule .esm defaultRuntime loneGrammar).surrogateFree = true := by
  have whole : loneSurrogates.Whole := ⟨⟨trivial, trivial, trivial⟩, trivial, trivial⟩
  have one : Text.ofNat 1 = "1" := by
    rw [Text.ofNat]
    rfl
  have minus : Text.ofInt (-1) = "-1" := congrArg (List.cons (CodePoint.char '-')) one
  have number : (Json.int (-1)).Readable := by
    rw [Json.Readable, Int.natAbs_neg, Int.natAbs_one, one]
    decide
  have readable : loneSurrogates.Readable := ⟨⟨number, trivial, trivial⟩, trivial, trivial⟩
  have free : loneSurrogates.line.surrogateFree = true := by
    simp only [loneSurrogates, Json.line, Json.write, Json.writeItems, Json.writeMembers, minus]
    rfl
  have read : Json.read loneSurrogates.line = .ok loneSurrogates :=
    Json.read_write Json.legible_line readable
  have kept := compact_reads_back_and_encodes.1 _ _ free read whole
  exact ⟨⟨free, read, kept.1, kept.2.1⟩,
    (compact_reads_back_and_encodes.2 loneGrammar .esm defaultRuntime (by decide)
      encodable_loneGrammar).1⟩

end Bundle

end GrammarBundle
