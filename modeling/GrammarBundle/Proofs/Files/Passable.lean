import GrammarBundle.Proofs.Files.Below

/-!
Texts that the system takes as paths: they hold no zero character, and a surrogate only where it carries a
byte. What is put together from such texts is such a text, and an operation on it fails only where the
system refuses it.
-/

namespace GrammarBundle

/-- Whether a path can hold a code point. -/
def CodePoint.isPassable (p : CodePoint) : Bool :=
  p ≠ .char '\x00' && (FileName.pointBytes? p).isSome

def Text.Passable (t : Text) : Prop := ∀ p ∈ t, p.isPassable = true

instance (t : Text) : Decidable t.Passable :=
  inferInstanceAs (Decidable (∀ p ∈ t, p.isPassable = true))

namespace Text

variable {s t : Text}

theorem Passable.of_subset (passable : t.Passable) (part : s ⊆ t) : s.Passable :=
  fun p inside => passable p (part inside)

theorem passable_append : Passable (s ++ t) ↔ s.Passable ∧ t.Passable :=
  List.forall_mem_append

theorem Passable.append (first : s.Passable) (last : t.Passable) : Passable (s ++ t) :=
  passable_append.mpr ⟨first, last⟩

theorem passable_encode (passable : t.Passable) : ∃ bytes, FileName.encode t = .ok bytes := by
  simp only [FileName.encode_ok_iff]
  induction t with
  | nil => exact ⟨[], .nil⟩
  | cons p t ih =>
    obtain ⟨bytes, later⟩ := ih fun q inside => passable q (List.mem_cons_of_mem _ inside)
    have here := passable p List.mem_cons_self
    rw [CodePoint.isPassable, Bool.and_eq_true, Option.isSome_iff_exists] at here
    obtain ⟨first, here⟩ := here.2
    exact ⟨first ++ bytes, .point here later⟩

theorem passable_of_encode {bytes : List UInt8} (closed : CodePoint.char '\x00' ∉ t)
    (encoded : FileName.encode t = .ok bytes) : t.Passable := by
  have encodes := FileName.encode_ok_iff.mp encoded
  clear encoded
  induction encodes with
  | nil => exact fun p inside => absurd inside List.not_mem_nil
  | @point p first t rest here later ih =>
    rw [List.mem_cons, not_or] at closed
    intro q inside
    rcases List.mem_cons.mp inside with rfl | inside
    · rw [CodePoint.isPassable, here]
      simpa using Ne.symm closed.1
    · exact ih closed.2 q inside

theorem Passable.closed (passable : t.Passable) : CodePoint.char '\x00' ∉ t := by
  intro inside
  have here := passable _ inside
  revert here
  decide

theorem Passable.join {separator : Text} {pieces : List Text} (between : separator.Passable)
    (all : ∀ piece ∈ pieces, piece.Passable) : (Text.join separator pieces).Passable := by
  induction pieces with
  | nil => exact fun p inside => absurd inside List.not_mem_nil
  | cons first pieces ih =>
    have later := ih fun piece member => all piece (List.mem_cons_of_mem _ member)
    have here := all first List.mem_cons_self
    cases pieces with
    | nil => exact here
    | cons second pieces =>
      rw [join_cons (List.cons_ne_nil _ _)]
      exact (here.append between).append later

theorem Passable.joinPath {base name : Text} (first : base.Passable) (last : name.Passable) :
    (Text.joinPath base name).Passable := by
  unfold Text.joinPath
  split
  · exact last
  · split
    · exact first.append last
    · exact (first.append (by decide)).append last

end Text

namespace Path

/-- A path all of whose parts are passable. -/
structure Passable (path : Path) : Prop where
  root : path.root.Passable
  names : ∀ name ∈ path.names, name.Passable

variable {path : Path} {t : Text}

theorem Passable.toText (passable : path.Passable) : path.toText.Passable := by
  unfold Path.toText
  split
  · decide
  · exact passable.root.append (.join (by decide) passable.names)

theorem passable_ofText (passable : t.Passable) : (ofText t).Passable where
  root := by
    change (rootOf t).Passable
    unfold rootOf
    split <;> decide
  names := by
    intro name member
    have piece := (List.mem_filter.mp member).1
    exact passable.of_subset (Text.sublist_of_mem_splitAt piece).subset

theorem Passable.join (base : path.Passable) (passable : t.Passable) : (path.join t).Passable := by
  unfold Path.join
  dsimp only
  split
  · exact passable_ofText passable
  · refine ⟨base.root, fun name member => ?_⟩
    rcases List.mem_append.mp member with before | after
    · exact base.names name before
    · exact (passable_ofText passable).names name after

end Path

/-- A result, or a refusal by the system. -/
def PathFault.OnlyRefused {α : Type} : Except PathFault α → Prop
  | .ok _ => True
  | .error fault => ∃ reason, fault = .system reason

namespace Disk

open PathFault (OnlyRefused)

variable {t : Text} (d : Disk) (workdir : Place) (follow : Bool)

theorem walkPath_refused (passable : t.Passable) : OnlyRefused (d.walkPath workdir follow t) := by
  obtain ⟨bytes, encoded⟩ := Text.passable_encode passable
  have closed : t.elem (.char '\x00') = false := by
    simpa using passable.closed
  unfold walkPath
  rw [encoded]
  dsimp only
  rw [closed, if_neg Bool.false_ne_true]
  split
  · exact ⟨_, rfl⟩
  · split
    · exact ⟨_, rfl⟩
    · split
      · exact ⟨_, rfl⟩
      · trivial

theorem look_refused (passable : t.Passable) : OnlyRefused (d.look workdir follow t) := by
  have walked := walkPath_refused d workdir follow passable
  unfold look
  generalize d.walkPath workdir follow t = ended at walked ⊢
  rcases ended with fault | found | free
  · exact walked
  · trivial
  · exact ⟨_, rfl⟩

theorem writePlace_refused (passable : t.Passable) : OnlyRefused (d.writePlace workdir t) := by
  have walked := walkPath_refused d workdir true passable
  unfold writePlace
  generalize d.walkPath workdir true t = ended at walked ⊢
  rcases ended with fault | ⟨place, node⟩ | free
  · exact walked
  · cases node
    case file => trivial
    all_goals exact ⟨_, rfl⟩
  · trivial

theorem read_refused (passable : t.Passable) : OnlyRefused (d.read workdir t) := by
  have looked := look_refused d workdir true passable
  unfold read
  generalize d.look workdir true t = ended at looked ⊢
  rcases ended with fault | ⟨place, node⟩
  · exact looked
  · cases node
    case file => trivial
    all_goals exact ⟨_, rfl⟩

theorem list_refused (passable : t.Passable) : OnlyRefused (d.list workdir t) := by
  have looked := look_refused d workdir true passable
  unfold list
  generalize d.look workdir true t = ended at looked ⊢
  rcases ended with fault | ⟨place, node⟩
  · exact looked
  · cases node
    case directory => trivial
    all_goals exact ⟨_, rfl⟩

/-- A disk on which every name is passable, as it is on a system. -/
def Passable (d : Disk) : Prop := ∀ entry ∈ d.entries, ∀ name ∈ entry.1, name.Passable

variable {d workdir}

/-- What holds of all names on a disk holds of those that a listing shows. -/
theorem names_of_list {P : Text → Prop} {names : List Text}
    (each : ∀ entry ∈ d.entries, ∀ name ∈ entry.1, P name)
    (listed : d.list workdir t = .ok names) : ∀ name ∈ names, P name := by
  intro name member
  unfold list at listed
  split at listed
  · cases listed
  · cases listed
    obtain ⟨child, inside, rfl⟩ := List.mem_map.mp member
    rw [children, List.mem_mergeSort, List.mem_filterMap] at inside
    obtain ⟨entry, held, kept⟩ := inside
    dsimp only at kept
    split at kept
    next last ended =>
      split at kept
      · cases kept
        exact each entry held _ (List.mem_of_getLast? ended)
      · cases kept
    · cases kept
  · cases listed

end Disk

end GrammarBundle
