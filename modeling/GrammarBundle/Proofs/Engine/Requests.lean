import GrammarBundle.Proofs.Engine.Replies
import GrammarBundle.Proofs.Json.ReadBack
import GrammarBundle.Proofs.Text.Utf16
import GrammarBundle.Proofs.Text.Utf8

/-!
Requests as the engine reads them. The input of a call is read back as the object that was asked for,
each surrogate pair of its texts as one character; the source of a file has no surrogates and is read
back as it is.
-/

namespace GrammarBundle

theorem Text.surrogateFree_unifyLineEnds {t : Text} (free : t.surrogateFree = true) :
    t.unifyLineEnds.surrogateFree = true := by
  unfold Text.surrogateFree at free ⊢
  induction t using Text.unifyLineEnds.induct with
  | case1 => rfl
  | case2 rest ih =>
    rw [List.all_cons, List.all_cons, Bool.and_eq_true, Bool.and_eq_true] at free
    rw [Text.unifyLineEnds, List.all_cons, ih free.2.2]
    rfl
  | case3 p rest other ih =>
    rw [List.all_cons, Bool.and_eq_true] at free
    rw [Text.unifyLineEnds, List.all_cons, ih free.2]
    · split
      · rfl
      · rw [free.1]
        rfl
    · exact other

namespace Json

theorem pairedItems_eq (items : List Json) : pairedItems items = items.map paired := by
  induction items with
  | nil => rfl
  | cons v rest ih => rw [pairedItems, ih, List.map_cons]

theorem readable_texts {α : Type} (text : α → Text) (items : List α) :
    ReadableItems (items.map fun item => .str (text item)) := by
  induction items with
  | nil => trivial
  | cons item rest ih => exact ⟨trivial, ih⟩

end Json

namespace Engine

variable {ctx : Context} {script : Text}

theorem read_compileCall {source : Text} (free : source.surrogateFree = true) :
    Json.read ((compileCall ctx script source).input.getD []) =
      .ok (.object [("op", .str "compile"), ("ohmModule", .str ctx.config.runtime.paired),
        ("source", .str source)]) := by
  have readable : (requestJson "compile" ctx [("source", .str source)]).Readable :=
    ⟨trivial, trivial, trivial, trivial⟩
  have read := Json.read_write Json.legible_line readable
  have whole : (requestJson "compile" ctx [("source", .str source)]).paired =
      .object [("op", .str "compile"), ("ohmModule", .str ctx.config.runtime.paired),
        ("source", .str source.paired)] := rfl
  rw [whole, Text.paired_of_surrogateFree free] at read
  exact read

theorem read_typesCall {c : Collection} :
    Json.read ((typesCall ctx script c).input.getD []) =
      .ok (.object [("op", .str "types"), ("ohmModule", .str ctx.config.runtime.paired),
        ("typesModule", .str ctx.config.typesModule.paired),
        ("sources", .list (c.map fun entry => .str (sourceText entry.grammar).paired))]) := by
  have readable : (requestJson "types" ctx [("typesModule", .str ctx.config.typesModule),
      ("sources", .list (c.map fun entry => .str (sourceText entry.grammar)))]).Readable :=
    ⟨trivial, trivial, trivial, Json.readable_texts _ c, trivial⟩
  have read := Json.read_write Json.legible_line readable
  have whole : (requestJson "types" ctx [("typesModule", .str ctx.config.typesModule),
      ("sources", .list (c.map fun entry => .str (sourceText entry.grammar)))]).paired =
        .object [("op", .str "types"), ("ohmModule", .str ctx.config.runtime.paired),
          ("typesModule", .str ctx.config.typesModule.paired),
          ("sources", .list (Json.pairedItems
            (c.map fun entry => .str (sourceText entry.grammar))))] := rfl
  rw [whole, Json.pairedItems_eq, List.map_map] at read
  exact read

end Engine

end GrammarBundle
